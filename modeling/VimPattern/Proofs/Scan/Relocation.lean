/-
Module: VimPattern.Proofs.Scan.Relocation
Purpose: A text read behind another one.
Main exports:
  Displacement, Tally.behind, Lexeme.behind, Token.behind, Context.behind, Scan.behind,
  Context.verdict_behind, Scan.readFrom_behind, Context.withStar, Scan.readFrom_withStar
-/
import VimPattern.Proofs.Scan.Reads

namespace VimPattern

/-!
A text that stands behind another one is read as it is read at the start of a pattern: its
items are found at offsets that count from the start of the other text, and its groups are
numbered on from the groups there.  `Displacement` says what the text stands behind.  Each
of the records that reading makes gets an operation that puts it there, and reading commutes
with all of them, the errors included.

One thing is left over.  At the start of a pattern a bare star is itself, and behind another
text it need not be.  That is asked only before the first token, and only of a star.
-/

/-- What a text stands behind. -/
structure Displacement where
  /-- The bytes before the text. -/
  offset : Nat
  /-- What has been counted in them. -/
  front : Tally := {}

/-- Count on from another tally. -/
def Tally.behind (tally front : Tally) : Tally :=
  { plainGroups := front.plainGroups + tally.plainGroups
    externalGroups := front.externalGroups + tally.externalGroups
    highestExternal := max front.highestExternal tally.highestExternal
    matchStart := front.matchStart || tally.matchStart
    matchEnd := front.matchEnd || tally.matchEnd
    backReference := front.backReference || tally.backReference }

/-- Number a lexeme on from a tally: a group has a higher number, and a limit of the match is
the first of its sort only if there was none. -/
def Lexeme.behind (front : Tally) : Lexeme → Lexeme
  | .groupOpen (.capturing number) => .groupOpen (.capturing (front.plainGroups + number))
  | .groupOpen (.external number) => .groupOpen (.external (front.externalGroups + number))
  | .literal (.matchStart first) => .literal (.matchStart (!front.matchStart && first))
  | .literal (.matchEnd first) => .literal (.matchEnd (!front.matchEnd && first))
  | lexeme => lexeme

def Content.behind (front : Tally) : Content → Content
  | .mark remark => .mark remark
  | .lexeme meaning => .lexeme (meaning.behind front)

def Verdict.behind (front : Tally) : Verdict → Verdict
  | .item content extra => .item (content.behind front) extra
  | .fault cause extra => .fault cause extra
  | .noRule => .noRule

def Token.behind (displacement : Displacement) (token : Token) : Token :=
  { token with
    lexeme := token.lexeme.behind displacement.front
    position := displacement.offset + token.position }

def Item.behind (displacement : Displacement) (item : Item) : Item :=
  { item with
    content := item.content.behind displacement.front
    position := displacement.offset + item.position }

def Enclosure.behind (displacement : Displacement) (enclosure : Enclosure) : Enclosure :=
  { enclosure with position := displacement.offset + enclosure.position }

def Context.behind (displacement : Displacement) (context : Context) : Context :=
  { context with
    enclosing := context.enclosing.map (Enclosure.behind displacement)
    tally := context.tally.behind displacement.front }

def Terminus.behind (displacement : Displacement) (terminus : Terminus) : Terminus :=
  { position := displacement.offset + terminus.position
    context := terminus.context.behind displacement }

def Ending.behind (displacement : Displacement) : Ending → Ending
  | .finished terminus => .finished (terminus.behind displacement)
  | .unterminated enclosure => .unterminated (enclosure.behind displacement)
  | .noRule position rest => .noRule (displacement.offset + position) rest
  | .fault cause raw position => .fault cause raw (displacement.offset + position)

def Scan.behind (displacement : Displacement) (scan : Scan) : Scan :=
  { items := scan.items.map (Item.behind displacement)
    ending := scan.ending.behind displacement }

/-! ### Counting on -/

@[simp] theorem Lexeme.kind_behind (front : Tally) (lexeme : Lexeme) :
    (lexeme.behind front).kind = lexeme.kind := by
  cases lexeme with
  | literal literal => cases literal <;> rfl
  | groupOpen sort => cases sort <;> rfl
  | _ => rfl

/-- Counting a lexeme and counting on may change places. -/
theorem Tally.record_behind (tally front : Tally) (lexeme : Lexeme) :
    (tally.behind front).record (lexeme.behind front) =
      (tally.record lexeme).behind front := by
  cases lexeme with
  | literal literal =>
      cases literal <;> simp [Lexeme.behind, record, behind, Nat.max_assoc]
  | groupOpen sort => cases sort <;> rfl
  | _ => rfl

/-- Nothing changes behind an empty tally. -/
@[simp] theorem Tally.behind_empty (tally : Tally) : tally.behind {} = tally := by
  simp [behind]

@[simp] theorem Tally.empty_behind (front : Tally) : ({} : Tally).behind front = front := by
  simp [behind]

@[simp] theorem Lexeme.behind_empty (lexeme : Lexeme) : lexeme.behind {} = lexeme := by
  cases lexeme with
  | literal literal => cases literal <;> simp [behind]
  | groupOpen sort => cases sort <;> simp [behind]
  | _ => rfl

/-! ### Verdicts -/

/-- The verdict does not depend on what has been counted. -/
def Verdict.Uncounted (verdict : Verdict) : Prop :=
  ∀ front, verdict.behind front = verdict

namespace Verdict

theorem uncounted_numeric (found : Option Char) (extra : Nat) {wrap : Char → Lexeme}
    (wrapped : ∀ char front, (wrap char).behind front = wrap char) :
    (numeric found extra wrap).Uncounted := by
  intro front
  cases found with
  | none => rfl
  | some char => exact congrArg (fun lexeme => item (.lexeme lexeme) extra) (wrapped char front)

theorem uncounted_afterUnderscore (text : List Char) : (afterUnderscore text).Uncounted := by
  intro front
  unfold afterUnderscore
  split
  · rfl
  · rfl
  · rfl
  · rfl
  · split <;> rfl
  · rfl

theorem uncounted_afterPercent (text : List Char) : (afterPercent text).Uncounted := by
  unfold afterPercent
  split
  · exact fun _ => rfl
  · exact fun _ => rfl
  · exact fun _ => rfl
  · exact fun _ => rfl
  · split
    · exact fun _ => rfl
    · split
      · exact uncounted_numeric _ _ fun _ _ => rfl
      · exact fun _ => rfl

theorem uncounted_backslashMember (text : List Char) : (backslashMember text).Uncounted := by
  unfold backslashMember
  dsimp only
  split
  · exact uncounted_numeric _ _ fun _ _ => rfl
  · split
    · split <;> exact fun _ => rfl
    · exact fun _ => rfl

theorem uncounted_bracketMember (text : List Char) : (bracketMember text).Uncounted := by
  unfold bracketMember
  split
  · split <;> exact fun _ => rfl
  · split
    · split <;> exact fun _ => rfl
    · exact fun _ => rfl

theorem uncounted_inCollection (withBreak : Bool) (char : Char) (text : List Char) :
    (inCollection withBreak char text).Uncounted := by
  unfold inCollection
  split
  · exact fun _ => rfl
  · exact uncounted_bracketMember text
  · exact uncounted_backslashMember text
  · split <;> exact fun _ => rfl
  · exact fun _ => rfl

end Verdict

section Rules

variable (displacement : Displacement) (context : Context)

/-- The level, the region and the rule for stars are those of the text itself. -/
@[simp] theorem Context.region_behind :
    (context.behind displacement).region = context.region := by
  rcases context with ⟨level, _ | ⟨enclosure, outer⟩, star, line, tally⟩ <;> rfl

theorem Operator.read?_behind (operator : Operator) (escaped : Bool) (text : List Char) :
    operator.read? (context.behind displacement) escaped text =
      (operator.read? context escaped text).map fun (content, taken) =>
        (content.behind displacement.front, taken) := by
  cases operator with
  | star =>
      rw [read?, read?]
      change (if context.starIsLiteral && !escaped then _ else _) = _
      split <;> rfl
  | braces =>
      rw [read?, read?]
      cases Braces.read? escaped text <;> rfl
  | assertion =>
      rw [read?, read?]
      cases Assertion.read? text <;> rfl
  | _ => rfl

namespace Verdict

theorem afterZ_behind (text : List Char) :
    afterZ (context.behind displacement) text =
      (afterZ context text).behind displacement.front := by
  unfold afterZ
  split
  · simp [literal, lexeme, behind, Content.behind, Lexeme.behind, Context.behind,
      Tally.behind]
  · simp [literal, lexeme, behind, Content.behind, Lexeme.behind, Context.behind,
      Tally.behind]
  · rfl
  · split <;> rfl
  · rfl

theorem afterBackslash_behind (char : Char) (text : List Char) :
    afterBackslash (context.behind displacement) char text =
      (afterBackslash context char text).behind displacement.front := by
  unfold afterBackslash
  split
  · rfl
  · split
    · rfl
    · split
      · rfl
      · exact (uncounted_afterUnderscore text _).symm
      · exact afterZ_behind displacement context text
      · exact (uncounted_afterPercent text _).symm
      · rfl
      · rfl
      · rfl
      · split <;> rfl

theorem escaped_behind (text : List Char) :
    escaped (context.behind displacement) text =
      (escaped context text).behind displacement.front := by
  cases text with
  | nil => rfl
  | cons char text =>
      rw [escaped, escaped]
      cases Operator.ofChar? char with
      | none => exact afterBackslash_behind displacement context char text
      | some operator =>
          dsimp only
          change (if operator.isActive context.magicness true then _ else _) = _
          split
          · rw [Operator.read?_behind]
            cases operator.read? context true text <;> rfl
          · rfl

theorem bare_behind (char : Char) (text : List Char) :
    bare (context.behind displacement) char text =
      (bare context char text).behind displacement.front := by
  unfold bare
  cases Operator.ofChar? char with
  | some operator =>
      dsimp only
      change (if operator.isActive context.magicness false then _ else _) = _
      split
      · rw [Operator.read?_behind]
        cases operator.read? context false text <;> rfl
      · rfl
  | none =>
      dsimp only
      rw [Context.region_behind]
      split
      · change (if context.magicness = .veryMagic then _ else _) = _
        split <;> rfl
      · change (if context.magicness = .veryMagic then _ else _) = _
        split <;> rfl
      · split <;> rfl
      · rfl

end Verdict

/-- Behind another text the same item is read, and numbered on. -/
theorem Context.verdict_behind (char : Char) (text : List Char) :
    (context.behind displacement).verdict char text =
      (context.verdict char text).behind displacement.front := by
  have outside :
      Verdict.outside (context.behind displacement) char text =
        (Verdict.outside context char text).behind displacement.front := by
    rw [Verdict.outside, Verdict.outside]
    split
    · exact Verdict.escaped_behind displacement context text
    · exact Verdict.bare_behind displacement context char text
  rcases context with ⟨level, _ | ⟨⟨_ | _, place⟩, outer⟩, star, line, tally⟩
  · exact outside
  · exact (Verdict.uncounted_inCollection _ char text _).symm
  · exact outside

end Rules

/-! ### Scans -/

section Scans

variable (displacement : Displacement)

theorem Context.afterToken_behind (context : Context) (token : Token) :
    (context.behind displacement).afterToken (token.behind displacement) =
      (context.afterToken token).behind displacement := by
  have enclosing :
      (context.behind displacement).enclosingAfter (displacement.offset + token.position)
          (token.lexeme.behind displacement.front) =
        (context.enclosingAfter token.position token.lexeme).map
          (Enclosure.behind displacement) := by
    rcases token with ⟨lexeme, raw, position, level⟩
    cases lexeme with
    | literal literal => cases literal <;> rfl
    | groupOpen sort => cases sort <;> rfl
    | collectionClose withBreak => exact List.map_drop.symm
    | optionalClose => exact List.map_drop.symm
    | _ => rfl
  have kind : (token.behind displacement).kind = token.kind := token.lexeme.kind_behind _
  have counted : (context.behind displacement).tally.record
      (token.lexeme.behind displacement.front) =
        (context.tally.record token.lexeme).behind displacement.front :=
    context.tally.record_behind displacement.front token.lexeme
  rw [afterToken, afterToken, kind]
  rw [behind, Context.mk.injEq]
  exact ⟨rfl, enclosing, rfl, rfl, counted⟩

theorem Context.afterMark_behind (context : Context) (mark : Mark) :
    (context.behind displacement).afterMark mark =
      (context.afterMark mark).behind displacement := by
  cases mark <;> rfl

theorem Scan.contextAfter_behind (context : Context) (content : Content) (raw : String)
    (position : Nat) :
    contextAfter (context.behind displacement) (content.behind displacement.front) raw
        (displacement.offset + position) =
      (contextAfter context content raw position).behind displacement := by
  cases content with
  | mark mark => exact context.afterMark_behind displacement mark
  | lexeme lexeme =>
      exact context.afterToken_behind displacement
        { lexeme := lexeme
          raw := raw
          position := position
          magicness := context.magicness }

theorem Scan.endingOf_behind (context : Context) (position : Nat) :
    endingOf (context.behind displacement) (displacement.offset + position) =
      (endingOf context position).behind displacement := by
  rcases context with ⟨level, _ | ⟨enclosure, outer⟩, star, line, tally⟩ <;> rfl

/-- A text is read behind another one as it is read on its own. -/
theorem Scan.readFrom_behind (context : Context) (position passed : Nat) (text : List Char) :
    readFrom (context.behind displacement) (displacement.offset + position) passed text =
      (readFrom context position passed text).behind displacement := by
  induction text generalizing context position passed with
  | nil =>
      rw [readFrom, readFrom, endingOf_behind]
      rfl
  | cons char text inductionHypothesis =>
      cases passed with
      | succ more =>
          rw [readFrom, readFrom, Nat.add_assoc]
          exact inductionHypothesis context (position + char.utf8Size) more
      | zero =>
          rw [readFrom, readFrom, context.verdict_behind displacement]
          cases context.verdict char text with
          | fault fault extra => rfl
          | noRule => rfl
          | item content extra =>
              dsimp only [Verdict.behind]
              rw [contextAfter_behind, Nat.add_assoc, inductionHypothesis]
              rfl

/-- The tokens of a text are those it has on its own, put behind the other text. -/
theorem Scan.tokens_behind (scan : Scan) :
    (scan.behind displacement).tokens = scan.tokens.map (Token.behind displacement) := by
  rw [tokens, tokens, behind, List.filterMap_map, List.map_filterMap]
  congr 1
  funext item
  rcases item with ⟨_ | _, raw, position, level⟩ <;> rfl

end Scans

/-! ### The first star -/

/-- The same context with another answer to whether a star has anything to repeat. -/
def Context.withStar (star : Bool) (context : Context) : Context :=
  { context with starIsLiteral := star }

def Ending.withStar (star : Bool) : Ending → Ending
  | .finished terminus =>
      .finished { terminus with context := terminus.context.withStar star }
  | ending => ending

def Scan.withStar (star : Bool) (scan : Scan) : Scan :=
  { scan with ending := scan.ending.withStar star }

/-- Only a bare star asks whether it has anything to repeat. -/
theorem Operator.read?_withStar (context : Context) (star : Bool) {operator : Operator}
    {escaped : Bool} (notStar : operator = .star → escaped = true) (text : List Char) :
    operator.read? (context.withStar star) escaped text =
      operator.read? context escaped text := by
  cases operator with
  | star =>
      obtain rfl := notStar rfl
      rw [read?, read?, Bool.not_true, Bool.and_false, Bool.and_false]
  | _ => rfl

theorem Context.verdict_withStar (context : Context) (star : Bool) {char : Char}
    (notStar : char ≠ '*') (text : List Char) :
    (context.withStar star).verdict char text = context.verdict char text := by
  have escaped : Verdict.escaped (context.withStar star) text =
      Verdict.escaped context text := by
    cases text with
    | nil => rfl
    | cons char text =>
        rw [Verdict.escaped, Verdict.escaped]
        cases Operator.ofChar? char with
        | none => rfl
        | some operator =>
            dsimp only
            rw [Operator.read?_withStar context star fun _ => rfl]
            rfl
  have bare : Verdict.bare (context.withStar star) char text =
      Verdict.bare context char text := by
    unfold Verdict.bare
    cases found : Operator.ofChar? char with
    | none => rfl
    | some operator =>
        have other : operator = .star → false = true := by
          rintro rfl
          exact absurd (Operator.char_of_ofChar? found).symm notStar
        dsimp only
        rw [Operator.read?_withStar context star other]
        rfl
  have outside : Verdict.outside (context.withStar star) char text =
      Verdict.outside context char text := by
    rw [Verdict.outside, Verdict.outside, escaped, bare]
  rcases context with ⟨level, _ | ⟨⟨_ | _, place⟩, outer⟩, literal, line, tally⟩
  · exact outside
  · rfl
  · exact outside

/-- A star is always a token of its own. -/
theorem Context.verdict_star (context : Context) (text : List Char) :
    ∃ lexeme, context.verdict '*' text = .item (.lexeme lexeme) 0 := by
  have outside : ∃ lexeme, Verdict.outside context '*' text = .item (.lexeme lexeme) 0 := by
    have bare : Verdict.outside context '*' text = Verdict.bare context '*' text := rfl
    have star : Operator.ofChar? '*' = some .star := rfl
    simp only [bare, Verdict.bare, star, Operator.read?]
    cases Operator.star.isActive context.magicness false
    · exact ⟨_, rfl⟩
    · cases context.starIsLiteral <;> exact ⟨_, rfl⟩
  rcases context with ⟨level, _ | ⟨⟨_ | _, place⟩, outer⟩, star, line, tally⟩
  · exact outside
  · exact ⟨_, rfl⟩
  · exact outside

/-- Where no token of one character is read there is no star. -/
theorem Context.ne_star {context : Context} {char : Char} {text : List Char}
    (noToken : ∀ lexeme, context.verdict char text ≠ .item (.lexeme lexeme) 0) :
    char ≠ '*' := by
  rintro rfl
  obtain ⟨lexeme, token⟩ := context.verdict_star text
  exact noToken lexeme token

/-- A scan has the answer that it ends with. -/
theorem Scan.exists_withStar (scan : Scan) : ∃ star, scan.withStar star = scan := by
  rcases scan with ⟨items, _ | _ | _ | _⟩
  · exact ⟨_, rfl⟩
  all_goals exact ⟨true, rfl⟩

/-- A text whose first token is no bare star is read in the same way whether or not a star
would have had anything to repeat. -/
theorem Scan.Reads.withStar {context : Context} {position : Nat} {text : List Char}
    {scan : Scan} (reads : Reads context position text scan)
    (notStar : ∀ token ∈ scan.tokens.head?, token.raw ≠ "*") (star : Bool) :
    ∃ star', readFrom (context.withStar star) position 0 text = scan.withStar star' := by
  induction reads with
  | ended context position =>
      refine ⟨star, ?_⟩
      rcases context with ⟨level, _ | ⟨enclosure, outer⟩, literal, line, tally⟩ <;> rfl
  | @mark context position char text mark extra scan verdict rest inductionHypothesis =>
      have other : char ≠ '*' := by
        apply Context.ne_star
        rw [verdict]
        rintro lexeme ⟨⟩
      rw [← context.verdict_withStar star other] at verdict
      have marked : (context.withStar star).afterMark mark =
          (context.afterMark mark).withStar star := by
        cases mark <;> rfl
      obtain ⟨star', same⟩ := inductionHypothesis notStar
      refine ⟨star', ?_⟩
      rw [readFrom_item verdict, contextAfter, marked, same]
      rfl
  | @token context position char text token extra scan verdict raw place level rest _ =>
      have other : char ≠ '*' := by
        rintro rfl
        obtain ⟨lexeme, bare⟩ := context.verdict_star text
        rw [bare] at verdict
        injection verdict with _ alone
        subst alone
        exact notStar token rfl raw
      rw [← context.verdict_withStar star other] at verdict
      obtain ⟨star', same⟩ := (scan.cons
        { content := .lexeme token.lexeme
          raw := token.raw
          position := token.position
          magicness := token.magicness }).exists_withStar
      refine ⟨star', ?_⟩
      rw [same, readFrom_token verdict raw place level]
      exact congrArg _ rest.readFrom_eq
  | @fault context position char text fault extra verdict =>
      have other : char ≠ '*' := by
        apply Context.ne_star
        rw [verdict]
        rintro lexeme ⟨⟩
      rw [← context.verdict_withStar star other] at verdict
      refine ⟨star, ?_⟩
      rw [readFrom, verdict]
      rfl
  | @noRule context position char text verdict =>
      have other : char ≠ '*' := by
        apply Context.ne_star
        rw [verdict]
        rintro lexeme ⟨⟩
      rw [← context.verdict_withStar star other] at verdict
      refine ⟨star, ?_⟩
      rw [readFrom, verdict]
      rfl

end VimPattern
