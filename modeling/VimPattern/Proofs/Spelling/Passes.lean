/-
Module: VimPattern.Proofs.Spelling.Passes
Purpose: How the smallest parts of a written sketch are read at each level.
Main exports:
  Scan.Passes, Scan.Passes.append, Context.Continues, Scan.passes_operator,
  Scan.passes_alphaNumeric, Scan.passes_charClass, Scan.passes_member, Scan.passes_members,
  Scan.passes_clusterOpen, Scan.passes_optionalOpen, Scan.passes_optionalClose
-/
import VimPattern.Proofs.Scan.Admission
import VimPattern.Proofs.Spelling.Written
import VimPattern.Scan.Tiling

namespace VimPattern

/-!
Reading passes over the front of a text when the scan of the whole text is the
tokens of the front followed by the scan of the rest.  What a token leaves behind
is then all that the rest depends on.  The lemmas below pass over one operator in
the spelling of the current level, over a letter or a digit, and over the few
items that are written with more than one character.
-/

namespace Scan

/-- Reading passes over the front of a text, from one context and place to
another. -/
structure Passes (context : Context) (position : Nat) (text : List Char)
    (tokens : List Token) (after : Context) (place : Nat) (rest : List Char) :
    Prop where
  tokens_eq :
    (readFrom context position 0 text).tokens =
      tokens ++ (readFrom after place 0 rest).tokens
  ending_eq :
    (readFrom context position 0 text).ending = (readFrom after place 0 rest).ending

namespace Passes

/-- Reading passes over nothing. -/
theorem nothing (context : Context) (position : Nat) (text : List Char) :
    Passes context position text [] context position text where
  tokens_eq := rfl
  ending_eq := rfl

/-- Reading passes over one part and then over the next. -/
theorem append {context middle after : Context} {position halfway place : Nat}
    {text between rest : List Char} {front back : List Token}
    (first : Passes context position text front middle halfway between)
    (second : Passes middle halfway between back after place rest) :
    Passes context position text (front ++ back) after place rest where
  tokens_eq := by rw [first.tokens_eq, second.tokens_eq, List.append_assoc]
  ending_eq := by rw [first.ending_eq, second.ending_eq]

/-- Reading passes over an item that is a token. -/
theorem token {context : Context} {char : Char} {text : List Char} {lexeme : Lexeme}
    {extra : Nat} (verdict : context.verdict char text = .item (.lexeme lexeme) extra)
    (position : Nat) :
    ∃ token place, token.lexeme = lexeme ∧
      Passes context position (char :: text) [token] (context.afterToken token) place
        (text.drop extra) := by
  let token : Token :=
    { lexeme := lexeme
      raw := String.ofList (char :: text.take extra)
      position := position
      magicness := context.magicness }
  have item := readFrom_item verdict position
  refine ⟨token, position + byteLength (char :: text.take extra), rfl, ?_, ?_⟩
  · rw [item]
    rfl
  · rw [item]
    rfl

/-- A pattern over which reading passes to its end, leaving nothing open, has been read as
these tokens. -/
theorem ofPattern {level : Magicness} {text : List Char} {tokens : List Token}
    {after : Context} {place : Nat}
    (passes : Passes (.start level) 0 text tokens after place [])
    (closed : after.enclosing = []) :
    (ofPattern level (String.ofList text)).tokens = tokens ∧
      (ofPattern level (String.ofList text)).result =
        .ok { position := place, context := after } := by
  have scanned : Scan.ofPattern level (String.ofList text) =
      readFrom (.start level) 0 0 text := by
    rw [Scan.ofPattern, String.toList_ofList]
  refine ⟨?_, ?_⟩
  · rw [scanned, passes.tokens_eq]
    exact List.append_nil tokens
  · rw [scanned, result, passes.ending_eq]
    simp only [readFrom, endingOf, closed]

end Passes

end Scan

/-! ### What stays the same -/

/-- What a balanced part of a sketch leaves as it was. -/
structure Context.Continues (after before : Context) : Prop where
  magicness : after.magicness = before.magicness
  enclosing : after.enclosing = before.enclosing
  backReference : after.tally.backReference = before.tally.backReference

namespace Context

namespace Continues

theorem refl (context : Context) : context.Continues context :=
  ⟨rfl, rfl, rfl⟩

theorem trans {first middle last : Context} (late : last.Continues middle)
    (early : middle.Continues first) : last.Continues first where
  magicness := late.magicness.trans early.magicness
  enclosing := late.enclosing.trans early.enclosing
  backReference := late.backReference.trans early.backReference

/-- Inside or outside a collection is a matter of the open constructs. -/
theorem collection? {after before : Context} (continues : after.Continues before) :
    after.collection? = before.collection? := by
  rw [Context.collection?, Context.collection?, continues.enclosing]

end Continues

/-- A token that opens or closes nothing and refers to no group. -/
theorem continues_afterToken {context : Context} {token : Token} {lexeme : Lexeme}
    (same : token.lexeme = lexeme)
    (enclosing : ∀ place, context.enclosingAfter place lexeme = context.enclosing)
    (counted : (context.tally.record lexeme).backReference =
      context.tally.backReference) :
    (context.afterToken token).Continues context where
  magicness := rfl
  enclosing := by
    rw [← enclosing token.position, ← same]
    rfl
  backReference := by
    rw [← counted, ← same]
    rfl

/-- What a token opens is closed again behind a balanced part. -/
theorem continues_afterToken_of_closed {context inner : Context}
    {opener closer : Token} {opening closing : Lexeme} {enclosure : Enclosure}
    (opens : opener.lexeme = opening) (closes : closer.lexeme = closing)
    (opened : context.enclosingAfter opener.position opening =
      enclosure :: context.enclosing)
    (closed : inner.enclosingAfter closer.position closing = inner.enclosing.drop 1)
    (openingCounted : (context.tally.record opening).backReference =
      context.tally.backReference)
    (closingCounted : (inner.tally.record closing).backReference =
      inner.tally.backReference)
    (within : inner.Continues (context.afterToken opener)) :
    (inner.afterToken closer).Continues context where
  magicness := within.magicness
  enclosing := by
    have inside : inner.enclosing = enclosure :: context.enclosing := by
      rw [within.enclosing, ← opened, ← opens]
      rfl
    change inner.enclosingAfter closer.position closer.lexeme = _
    rw [closes, closed, inside, List.drop_one, List.tail_cons]
  backReference := by
    change (inner.tally.record closer.lexeme).backReference = _
    rw [closes, closingCounted, within.backReference]
    change (context.tally.record opener.lexeme).backReference = _
    rw [opens, openingCounted]

/-- Behind anything but a caret there is something to repeat. -/
theorem starIsLiteral_afterToken {context : Context} {token : Token}
    {lexeme : Lexeme} (same : token.lexeme = lexeme) (kind : lexeme.kind ≠ .caret) :
    (context.afterToken token).starIsLiteral = false := by
  have notCaret : (token.kind == .caret) = false := by
    rw [beq_eq_false_iff_ne, Token.kind, same]
    exact kind
  change (token.kind == .caret && context.atLineStart) = false
  rw [notCaret, Bool.false_and]

end Context

/-! ### Operators -/

namespace Operator

theorem older_eq (operator : Operator) (level : Magicness)
    (old : operator ∈ [anyChar, star, collection]) :
    level.older operator.char = operator.spelling level := by
  simp only [List.mem_cons, List.not_mem_nil, or_false] at old
  rcases old with rfl | rfl | rfl <;> cases level <;> rfl

theorem newer_eq (operator : Operator) (level : Magicness)
    (new : operator ∈
      [groupOpen, groupClose, alternative, conjunction, plus, equals, braces,
        assertion]) (others : List Char) :
    level.newer (operator.char :: others) = operator.spelling level ++ others := by
  simp only [List.mem_cons, List.not_mem_nil, or_false] at new
  rcases new with rfl | rfl | rfl | rfl | rfl | rfl | rfl | rfl <;>
    cases level <;> rfl

/-- A newer operator that is a single character. -/
theorem newer_singleton (operator : Operator) (level : Magicness)
    (new : operator ∈
      [groupOpen, groupClose, alternative, conjunction, plus, equals, braces,
        assertion]) : level.newer [operator.char] = operator.spelling level := by
  rw [newer_eq operator level new [], List.append_nil]

/-- No letter and no digit is an operator. -/
theorem ofChar?_of_isAlphanum {char : Char} (alphaNumeric : char.isAlphanum = true) :
    ofChar? char = none := by
  cases found : ofChar? char with
  | none => rfl
  | some operator =>
      rw [← char_of_ofChar? found] at alphaNumeric
      cases operator <;> cases alphaNumeric

end Operator

namespace Scan

/-- An operator in the spelling of the current level is passed over. -/
theorem passes_operator {context : Context} (outside : context.collection? = none)
    {operator : Operator} {text : List Char} {lexeme : Lexeme} {taken : Nat}
    (read : ∀ written, operator.read? context written text = some (.lexeme lexeme, taken))
    (position : Nat) :
    ∃ token place, token.lexeme = lexeme ∧
      Passes context position (operator.spelling context.magicness ++ text) [token]
        (context.afterToken token) place (text.drop taken) := by
  have active : operator.isActive context.magicness (!operator.isBareAt context.magicness) := by
    cases bare : operator.isBareAt context.magicness <;> simp [Operator.isActive, bare]
  obtain ⟨char, others, extra, spelled, verdict, left⟩ :=
    Context.verdict_operator outside active (read _)
  rw [spelled, ← left]
  exact Passes.token verdict position

/-! ### Letters and digits -/

/-- A letter or a digit stands for itself. -/
theorem passes_alphaNumeric {context : Context} (outside : context.collection? = none)
    (char : AlphaNumeric) (position : Nat) (rest : List Char) :
    ∃ token place, token.lexeme = .literal (.plain char.val) ∧
      Passes context position (char.val :: rest) [token] (context.afterToken token)
        place rest := by
  have verdict :
      context.verdict char.val rest = .item (.lexeme (.literal (.plain char.val))) 0 := by
    have differs {other : Char} (special : other.isAlphanum = false) :
        char.val ≠ other := ne_of_isAlphanum char.property special
    rw [Context.verdict_outside outside, Verdict.outside,
      if_neg (differs rfl)]
    unfold Verdict.bare
    rw [Operator.ofChar?_of_isAlphanum char.property]
    dsimp only
    split
    · next same => exact absurd same (differs rfl)
    · next same => exact absurd same (differs rfl)
    · next same => exact absurd same (differs rfl)
    · rfl
  exact Passes.token verdict position

/-- A class is written the same way at every level. -/
theorem passes_charClass {context : Context} (outside : context.collection? = none)
    (letterClass : CharClass) (position : Nat) (rest : List Char) :
    ∃ token place, token.lexeme = .literal (.charClass letterClass false) ∧
      Passes context position ('\\' :: letterClass.letter :: rest) [token]
        (context.afterToken token) place rest := by
  have verdict :
      context.verdict '\\' (letterClass.letter :: rest) =
        .item (.lexeme (.literal (.charClass letterClass false))) 1 := by
    have noOperator : Operator.ofChar? letterClass.letter = none := by
      rcases letterClass with ⟨set, _ | _⟩ <;> cases set <;> decide
    have noSwitch : Magicness.ofSwitch? letterClass.letter = none := by
      rcases letterClass with ⟨set, _ | _⟩ <;> cases set <;> decide
    rw [Context.verdict_outside outside, Verdict.outside, if_pos rfl, Verdict.escaped,
      noOperator]
    dsimp only
    unfold Verdict.afterBackslash
    rw [noSwitch]
    dsimp only
    rw [CharClass.ofLetter?_letter]
    rfl
  exact Passes.token verdict position

/-- An item inside a collection is passed over as a member. -/
theorem passes_member {context : Context} {withBreak : Bool}
    (inside : context.collection? = some withBreak) {char : Char} {text : List Char}
    {member : Member} {extra : Nat}
    (verdict : Verdict.inCollection withBreak char text = .member member extra)
    (position : Nat) :
    ∃ token place, token.lexeme = .member member ∧
      Passes context position (char :: text) [token] (context.afterToken token) place
          (text.drop extra) ∧
        (context.afterToken token).Continues context := by
  have here : context.verdict char text = .item (.lexeme (.member member)) extra := by
    rw [Context.verdict_inside inside, verdict]
    rfl
  obtain ⟨token, place, same, passes⟩ := Passes.token here position
  exact
    ⟨token, place, same, passes, Context.continues_afterToken same (fun _ => rfl) rfl⟩

/-- Letters and digits inside a collection are members. -/
theorem passes_members (chars : List AlphaNumeric) {context : Context}
    {withBreak : Bool} (inside : context.collection? = some withBreak) (position : Nat)
    (rest : List Char) :
    ∃ members after place,
      members.map Token.lexeme = chars.map (fun char => .member (.plain char.val)) ∧
        Passes context position (chars.map Subtype.val ++ rest) members after place
          rest ∧ after.Continues context := by
  induction chars generalizing context position with
  | nil => exact ⟨[], context, position, rfl, .nothing _ _ _, .refl context⟩
  | cons char chars inductionHypothesis =>
      have verdict :
          Verdict.inCollection withBreak char.val (chars.map Subtype.val ++ rest) =
            .member (.plain char.val) 0 := by
        have differs {other : Char} (special : other.isAlphanum = false) :
            char.val ≠ other := ne_of_isAlphanum char.property special
        unfold Verdict.inCollection
        split
        · next same => exact absurd same (differs rfl)
        · next same => exact absurd same (differs rfl)
        · next same => exact absurd same (differs rfl)
        · next same => exact absurd same (differs rfl)
        · rfl
      obtain ⟨token, halfway, same, first, continues⟩ := passes_member inside verdict position
      obtain ⟨members, after, place, lexemes, others, later⟩ :=
        inductionHypothesis (continues.collection?.trans inside) halfway
      refine ⟨token :: members, after, place, ?_, first.append others, ?_⟩
      · rw [List.map_cons, List.map_cons, same, lexemes]
      · exact later.trans continues

/-- The end of a collection. -/
theorem passes_collectionClose {context : Context} {withBreak : Bool}
    (inside : context.collection? = some withBreak) (position : Nat)
    (rest : List Char) :
    ∃ token place, token.lexeme = .collectionClose withBreak ∧
      Passes context position (']' :: rest) [token] (context.afterToken token) place
        rest := by
  have verdict :
      context.verdict ']' rest = .item (.lexeme (.collectionClose withBreak)) 0 := by
    rw [Context.verdict_inside inside]
    rfl
  exact Passes.token verdict position

/-! ### Items of several characters -/

/-- The opening of a group that only groups. -/
theorem passes_clusterOpen {context : Context} (outside : context.collection? = none)
    (position : Nat) (rest : List Char) :
    ∃ token place, token.lexeme = .groupOpen .nonCapturing ∧
      Passes context position (context.magicness.newer ['%', '('] ++ rest) [token]
        (context.afterToken token) place rest := by
  unfold Magicness.newer
  by_cases highest : context.magicness = .veryMagic
  · have verdict :
        context.verdict '%' ('(' :: rest) =
          .item (.lexeme (.groupOpen .nonCapturing)) 1 := by
      rw [Context.verdict_outside outside]
      simp [Verdict.outside, Verdict.bare, Operator.ofChar?, highest, Verdict.lexeme]
    rw [if_pos highest]
    exact Passes.token verdict position
  · have verdict :
        context.verdict '\\' ('%' :: '(' :: rest) =
          .item (.lexeme (.groupOpen .nonCapturing)) 2 := by
      rw [Context.verdict_outside outside]
      rfl
    rw [if_neg highest]
    exact Passes.token verdict position

/-- The opening of an optional sequence. -/
theorem passes_optionalOpen {context : Context} (outside : context.collection? = none)
    (position : Nat) (rest : List Char) :
    ∃ token place, token.lexeme = .optionalOpen ∧
      Passes context position (context.magicness.newer ['%', '['] ++ rest) [token]
        (context.afterToken token) place rest := by
  unfold Magicness.newer
  by_cases highest : context.magicness = .veryMagic
  · have verdict :
        context.verdict '%' ('[' :: rest) = .item (.lexeme .optionalOpen) 1 := by
      rw [Context.verdict_outside outside]
      simp [Verdict.outside, Verdict.bare, Operator.ofChar?, highest, Verdict.lexeme]
    rw [if_pos highest]
    exact Passes.token verdict position
  · have verdict :
        context.verdict '\\' ('%' :: '[' :: rest) = .item (.lexeme .optionalOpen) 2 := by
      rw [Context.verdict_outside outside]
      rfl
    rw [if_neg highest]
    exact Passes.token verdict position

/-- The end of an optional sequence. -/
theorem passes_optionalClose {context : Context} (region : context.region = .optionalMatch)
    (outside : context.collection? = none) (position : Nat) (rest : List Char) :
    ∃ token place, token.lexeme = .optionalClose ∧
      Passes context position (']' :: rest) [token] (context.afterToken token) place
        rest := by
  have verdict : context.verdict ']' rest = .item (.lexeme .optionalClose) 0 := by
    rw [Context.verdict_outside outside]
    simp [Verdict.outside, Verdict.bare, Operator.ofChar?, region, Verdict.lexeme]
  exact Passes.token verdict position

end Scan

end VimPattern
