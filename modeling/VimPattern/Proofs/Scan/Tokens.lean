/-
Module: VimPattern.Proofs.Scan.Tokens
Purpose: What holds of the tokens of a scanned pattern, whatever the pattern.
Main exports:
  Token.Arranged, Token.tally, Token.Counted, Scan.arranged_ofPattern,
  Scan.counted_ofPattern, Scan.tally_ofPattern, Scan.Reads.literalBreak
-/
import VimPattern.Proofs.Scan.Admission
import VimPattern.Proofs.Scan.Reads

namespace VimPattern

/-!
A context admits only some lexemes, and it changes with every token.  Here the
context is forgotten: what is left is a property of the row of tokens.  Members
stand between the opening and the closing of a collection and nowhere else, the
numbers count on, and the tally at the end is that of the tokens.
-/

/-! ### Collections -/

/-- Whether a lexeme leaves the reading inside a collection. -/
def Lexeme.collectionAfter (collection? : Option Bool) : Lexeme → Option Bool
  | .collectionOpen opening => some opening.withBreak
  | .collectionClose _ => none
  | _ => collection?

/-- The tokens can be read one after another, the first of them inside a
collection or outside of one, and all collections are closed behind them. -/
def Token.Arranged (collection? : Option Bool) : List Token → Prop
  | [] => collection? = none
  | token :: others =>
      token.lexeme.Readable ∧ token.lexeme.StandsIn collection? ∧
        Arranged (token.lexeme.collectionAfter collection?) others

/-- Nothing can be opened inside a collection, so that only the innermost open
construct can be one. -/
def Context.Flat (context : Context) : Prop :=
  ∀ enclosure ∈ context.enclosing.drop 1, enclosure.construct = .optionalMatch

namespace Context

theorem flat_start (level : Magicness) : (start level).Flat := by
  simp [Flat, start]

/-- Behind the innermost construct of a flat context there is no collection. -/
theorem Flat.collection?_drop {context other : Context} (flat : context.Flat)
    (dropped : other.enclosing = context.enclosing.drop 1) :
    other.collection? = none := by
  unfold collection?
  split
  · next enclosing =>
      have member := flat _ (by rw [← dropped, enclosing]; exact .head _)
      cases member
  · rfl

/-- Outside collections every open construct is an optional sequence. -/
theorem Flat.all_optional {context : Context} (flat : context.Flat)
    (outside : context.collection? = none) :
    ∀ enclosure ∈ context.enclosing, enclosure.construct = .optionalMatch := by
  rcases context with ⟨level, _ | ⟨⟨_ | _, place⟩, outer⟩, star, line, tally⟩
  · simp
  · cases outside
  · exact List.forall_mem_cons.2 ⟨rfl, flat⟩

/-- A token keeps a context flat, and it says itself where it leaves the
reading. -/
theorem Flat.afterToken {context : Context} (flat : context.Flat) {token : Token}
    (standsIn : token.lexeme.StandsIn context.collection?) :
    (context.afterToken token).Flat ∧
      (context.afterToken token).collection? =
        token.lexeme.collectionAfter context.collection? := by
  have kept : ∀ other : Context, other.enclosing = context.enclosing →
      other.Flat ∧ other.collection? = context.collection? := by
    intro other same
    rw [Flat, collection?, collection?, same]
    exact ⟨flat, rfl⟩
  have closed : ∀ other : Context, other.enclosing = context.enclosing.drop 1 →
      other.Flat ∧ other.collection? = none := by
    intro other same
    refine ⟨?_, flat.collection?_drop same⟩
    intro enclosure member
    rw [same] at member
    exact flat enclosure (List.mem_of_mem_drop member)
  rcases token with ⟨lexeme, raw, place, level⟩
  cases lexeme with
  | collectionOpen opening =>
      have outside := standsIn.eq_none fun _ => id
      exact ⟨flat.all_optional outside, rfl⟩
  | optionalOpen =>
      have outside := standsIn.eq_none fun _ => id
      exact ⟨flat.all_optional outside, outside.symm⟩
  | collectionClose closing => exact closed _ rfl
  | optionalClose =>
      have outside := standsIn.eq_none fun _ => id
      rw [outside]
      exact closed _ rfl
  | _ => exact kept _ rfl

/-- An item without a token changes nothing about the open constructs. -/
theorem enclosing_afterMark (context : Context) (mark : Mark) :
    (context.afterMark mark).enclosing = context.enclosing := by
  cases mark <;> rfl

/-- An item without a token is not counted. -/
theorem tally_afterMark (context : Context) (mark : Mark) :
    (context.afterMark mark).tally = context.tally := by
  cases mark <;> rfl

end Context

namespace Scan.Reads

/-- The tokens of a text that is read to its end are arranged. -/
theorem arranged {context : Context} {position : Nat} {text : List Char}
    {scan : Scan} {terminus : Terminus} (reads : Reads context position text scan)
    (flat : context.Flat) (finished : scan.ending = .finished terminus) :
    Token.Arranged context.collection? scan.tokens := by
  induction reads with
  | ended context position =>
      rcases context with ⟨level, _ | ⟨enclosure, outer⟩, star, line, tally⟩
      · rfl
      · cases finished
  | @mark context position char text mark extra scan verdict rest inductionHypothesis =>
      have same := context.enclosing_afterMark mark
      rw [Context.Flat, Context.collection?, same] at inductionHypothesis
      exact inductionHypothesis flat finished
  | token verdict raw place level rest inductionHypothesis =>
      have admits := Context.admits_of_verdict verdict
      obtain ⟨flatAfter, after⟩ := flat.afterToken admits.standsIn
      rw [tokens_cons_lexeme]
      refine ⟨admits.readable, admits.standsIn, ?_⟩
      rw [← after]
      exact inductionHypothesis flatAfter finished
  | fault => cases finished
  | noRule => cases finished

end Scan.Reads

/-! ### Counts -/

/-- The tally after some more tokens. -/
def Token.tally (tally : Tally) (tokens : List Token) : Tally :=
  tokens.foldl (fun counted token => counted.record token.lexeme) tally

/-- Each token that is counted comes next after those before it. -/
def Token.Counted (tally : Tally) : List Token → Prop
  | [] => True
  | token :: others =>
      token.lexeme.CountsOn tally ∧ Counted (tally.record token.lexeme) others

namespace Scan.Reads

/-- The tokens of a text are counted on from the tally at its start. -/
theorem counted {context : Context} {position : Nat} {text : List Char}
    {scan : Scan} (reads : Reads context position text scan) :
    Token.Counted context.tally scan.tokens := by
  induction reads with
  | ended => trivial
  | @mark context position char text mark extra scan verdict rest inductionHypothesis =>
      rwa [Context.tally_afterMark] at inductionHypothesis
  | token verdict raw place level rest inductionHypothesis =>
      exact ⟨(Context.admits_of_verdict verdict).countsOn, inductionHypothesis⟩
  | fault => trivial
  | noRule => trivial

/-- The tally at the end is that of the tokens. -/
theorem tally_eq {context : Context} {position : Nat} {text : List Char}
    {scan : Scan} {terminus : Terminus} (reads : Reads context position text scan)
    (finished : scan.ending = .finished terminus) :
    terminus.context.tally = Token.tally context.tally scan.tokens := by
  induction reads with
  | ended context position =>
      rcases context with ⟨level, _ | ⟨enclosure, outer⟩, star, line, tally⟩
      · cases finished
        rfl
      · cases finished
  | @mark context position char text mark extra scan verdict rest inductionHypothesis =>
      rw [Context.tally_afterMark] at inductionHypothesis
      exact inductionHypothesis finished
  | token verdict raw place level rest inductionHypothesis =>
      exact inductionHypothesis finished
  | fault => cases finished
  | noRule => cases finished

end Scan.Reads

/-! ### Line breaks -/

/-- An item that is spelled as a line break is an atom or a member. -/
theorem Context.kind_of_lineBreak {context : Context} {char : Char}
    {text : List Char} {lexeme : Lexeme} {extra : Nat}
    (verdict : context.verdict char text = .item (.lexeme lexeme) extra)
    (spelled : char :: text.take extra = ['\\', 'n'] ∨
      char :: text.take extra = ['\n']) : lexeme.kind = .literal := by
  have notClass : CharClass.ofLetter? 'n' = none := by decide
  rcases spelled with escape | bare
  · obtain ⟨rfl, taken⟩ := List.cons_eq_cons.1 escape
    obtain ⟨rest, rfl⟩ : ∃ rest, text = 'n' :: rest := by
      cases text with
      | nil => simp at taken
      | cons first rest =>
          cases extra with
          | zero => simp at taken
          | succ more => exact ⟨rest, by simp_all⟩
    unfold Context.verdict at verdict
    split at verdict
    · simp [Verdict.inCollection, Verdict.backslashMember, CodePoint.read?,
        CodeNotation.ofLetter?, Verdict.member, Verdict.lexeme] at verdict
      rw [← verdict.1]
      rfl
    · simp [Verdict.outside, Verdict.escaped, Operator.ofChar?,
        Verdict.afterBackslash, Magicness.ofSwitch?, notClass, Verdict.literal,
        Verdict.lexeme] at verdict
      rw [← verdict.1]
      rfl
  · obtain ⟨rfl, taken⟩ := List.cons_eq_cons.1 bare
    unfold Context.verdict at verdict
    split at verdict
    · simp [Verdict.inCollection, Verdict.member, Verdict.lexeme] at verdict
      rw [← verdict.1]
      rfl
    · simp [Verdict.outside, Verdict.bare, Operator.ofChar?, Verdict.literal,
        Verdict.lexeme] at verdict
      rw [← verdict.1]
      rfl

/-- The token is an atom or a member if it is spelled as a line break. -/
def Token.LiteralBreak (token : Token) : Prop :=
  token.isLineBreak → token.kind = .literal

namespace Scan

/-- Line breaks are read as atoms or members. -/
theorem Reads.literalBreak {context : Context} {position : Nat}
    {text : List Char} {scan : Scan} (reads : Reads context position text scan) :
    ∀ token ∈ scan.tokens, token.LiteralBreak := by
  induction reads with
  | ended => simp [tokens]
  | mark verdict rest inductionHypothesis => exact inductionHypothesis
  | token verdict raw place level rest inductionHypothesis =>
      rw [tokens_cons_lexeme]
      refine List.forall_mem_cons.2 ⟨?_, inductionHypothesis⟩
      intro spelled
      apply Context.kind_of_lineBreak verdict
      simp only [Token.isLineBreak, Bool.or_eq_true, beq_iff_eq] at spelled
      have characters := congrArg String.toList raw
      rw [String.toList_ofList] at characters
      rw [← characters]
      exact spelled.imp (congrArg String.toList) (congrArg String.toList)
  | fault => simp [tokens]
  | noRule => simp [tokens]

/-! ### Whole patterns -/

/-- A pattern that is read to its end has reached this place. -/
theorem ending_of_result {scan : Scan} {terminus : Terminus}
    (whole : scan.result = .ok terminus) : scan.ending = .finished terminus := by
  unfold result at whole
  split at whole
  · next ending =>
      cases whole
      exact ending
  all_goals cases whole

/-- The tokens of a pattern that is read to its end are arranged. -/
theorem arranged_ofPattern {level : Magicness} {pattern : String}
    {terminus : Terminus} (whole : (ofPattern level pattern).result = .ok terminus) :
    Token.Arranged none (ofPattern level pattern).tokens :=
  (reads_ofPattern level pattern).arranged (Context.flat_start level)
    (ending_of_result whole)

/-- The tokens of a pattern are counted from the start. -/
theorem counted_ofPattern (level : Magicness) (pattern : String) :
    Token.Counted {} (ofPattern level pattern).tokens :=
  (reads_ofPattern level pattern).counted

/-- The tally at the end of a pattern is that of its tokens. -/
theorem tally_ofPattern {level : Magicness} {pattern : String} {terminus : Terminus}
    (whole : (ofPattern level pattern).result = .ok terminus) :
    terminus.context.tally = Token.tally {} (ofPattern level pattern).tokens :=
  (reads_ofPattern level pattern).tally_eq (ending_of_result whole)

end Scan

end VimPattern
