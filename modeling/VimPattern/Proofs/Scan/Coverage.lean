/-
Module: VimPattern.Proofs.Scan.Coverage
Purpose: The texts for which there is no rule.
Main exports:
  Braces.read?_eq_none_iff, Assertion.read?_eq_none_iff, Unreadable,
  Context.verdict_eq_noRule_iff, Scan.Unmatched, Scan.Reaches.unmatched_iff
-/
import VimPattern.Proofs.Scan.Lookahead

namespace VimPattern

/-!
There is a rule for nearly every text.  A character without a meaning of its own stands for
itself, and so does one behind a backslash; an operator that needs more text than there is
falls back on that where it is spelled with a backslash.  What is left are the operators that
are spelled bare and need more text, which are the braces and the at sign of very magic, and a
backslash with nothing behind it.  Inside a collection everything stands for itself.
-/

/-! ### Operators that need more text -/

/-- No counted repetition is read exactly if the text starts with none. -/
theorem Braces.read?_eq_none_iff {text : List Char} :
    read? false text = none ↔ ∀ braces : Braces, braces.Digital → ¬braces.body false <+: text := by
  constructor
  · rintro unread braces digital ⟨rest, rfl⟩
    have read : read? false (braces.settled.body false ++ rest) = _ :=
      read?_body digital.settled braces.high_settled id rest
    rw [body_settled, unread] at read
    cases read
  · intro unspelled
    cases read : read? false text with
    | none => rfl
    | some found =>
        obtain ⟨digital, _, escape, allowed, same⟩ := exists_body_of_read? read
        obtain rfl : escape = false := by simpa using allowed
        refine absurd ?_ (unspelled found.1 digital)
        rw [← same]
        exact List.take_prefix _ _

/-- No assertion is read exactly if the text starts with none. -/
theorem Assertion.read?_eq_none_iff {text : List Char} :
    read? text = none ↔
      ∀ assertion characters, Spelled assertion characters → ¬characters <+: text := by
  constructor
  · rintro unread assertion characters spelled ⟨rest, rfl⟩
    rw [spelled.read?_append] at unread
    cases unread
  · intro unspelled
    cases read : read? text with
    | none => rfl
    | some found => exact absurd (List.take_prefix _ _) (unspelled _ _ (spelled_of_read? read))

/-- The other operators are always read. -/
theorem Operator.read?_eq_none_iff {context : Context} {escaped : Bool} {text : List Char}
    {operator : Operator} :
    operator.read? context escaped text = none ↔
      operator = .braces ∧ Braces.read? escaped text = none ∨
        operator = .assertion ∧ Assertion.read? text = none := by
  cases operator with
  | star =>
      rw [read?]
      split <;> simp
  | _ => simp [read?]

/-- Only very magic spells the braces bare. -/
theorem Operator.isActive_braces {level : Magicness} :
    Operator.braces.isActive level false ↔ level = .veryMagic := by
  cases level <;> decide

/-- Only very magic spells the at sign bare. -/
theorem Operator.isActive_assertion {level : Magicness} :
    Operator.assertion.isActive level false ↔ level = .veryMagic := by
  cases level <;> decide

/-- The texts outside collections for which there is no rule. -/
inductive Unreadable (level : Magicness) : List Char → Prop
  /-- A backslash with nothing behind it. -/
  | backslash : Unreadable level ['\\']
  /-- A bare brace that opens no counted repetition. -/
  | braces {text : List Char} (veryMagic : level = .veryMagic)
      (unspelled : ∀ braces : Braces, braces.Digital → ¬braces.body false <+: text) :
      Unreadable level ('\x7b' :: text)
  /-- A bare at sign that opens no assertion. -/
  | assertion {text : List Char} (veryMagic : level = .veryMagic)
      (unspelled : ∀ assertion characters,
        Assertion.Spelled assertion characters → ¬characters <+: text) :
      Unreadable level ('@' :: text)

namespace Verdict

/-! ### Families of rules -/

/-- Some rule reads an item here, which may turn out to be of no use. -/
def Covers : Verdict → Prop
  | .item _ _ | .fault _ _ => True
  | .noRule => False

theorem covers_iff {verdict : Verdict} : verdict.Covers ↔ verdict ≠ .noRule := by
  cases verdict <;> simp [Covers]

theorem covers_numeric (found : Option Char) (extra : Nat) (wrap : Char → Lexeme) :
    (numeric found extra wrap).Covers := by
  cases found <;> trivial

theorem covers_afterUnderscore (text : List Char) : (afterUnderscore text).Covers := by
  unfold afterUnderscore
  split
  · trivial
  · trivial
  · trivial
  · trivial
  · split <;> trivial
  · trivial

theorem covers_afterZ (context : Context) (text : List Char) :
    (afterZ context text).Covers := by
  unfold afterZ
  split
  · trivial
  · trivial
  · trivial
  · split <;> trivial
  · trivial

theorem covers_afterPercent (text : List Char) : (afterPercent text).Covers := by
  unfold afterPercent
  split
  · trivial
  · trivial
  · trivial
  · trivial
  · split
    · trivial
    · split
      · exact covers_numeric _ _ _
      · trivial

theorem covers_afterBackslash (context : Context) (char : Char) (text : List Char) :
    (afterBackslash context char text).Covers := by
  unfold afterBackslash
  split
  · trivial
  · split
    · trivial
    · split
      · trivial
      · exact covers_afterUnderscore text
      · exact covers_afterZ context text
      · exact covers_afterPercent text
      · trivial
      · trivial
      · trivial
      · split <;> trivial

/-- Whatever follows a backslash, some rule reads the two. -/
theorem covers_escaped (context : Context) (char : Char) (text : List Char) :
    (escaped context (char :: text)).Covers := by
  unfold escaped
  dsimp only
  split
  · split
    · split <;> trivial
    · trivial
  · exact covers_afterBackslash context char text

theorem covers_bracketMember (text : List Char) : (bracketMember text).Covers := by
  unfold bracketMember
  split
  · split <;> trivial
  · split
    · split <;> trivial
    · trivial

theorem covers_backslashMember (text : List Char) : (backslashMember text).Covers := by
  unfold backslashMember
  dsimp only
  split
  · exact covers_numeric _ _ _
  · split
    · split <;> trivial
    · trivial

/-- Inside a collection there is a rule for every text. -/
theorem covers_inCollection (withBreak : Bool) (char : Char) (text : List Char) :
    (inCollection withBreak char text).Covers := by
  unfold inCollection
  split
  · trivial
  · exact covers_bracketMember text
  · exact covers_backslashMember text
  · split <;> trivial
  · trivial

/-- There is no rule for a bare character exactly if it is an operator that needs more text. -/
theorem bare_eq_noRule_iff {context : Context} {char : Char} {text : List Char} :
    bare context char text = .noRule ↔
      ∃ operator, Operator.ofChar? char = some operator ∧
        operator.isActive context.magicness false ∧
          operator.read? context false text = none := by
  constructor
  · intro stuck
    unfold bare at stuck
    split at stuck
    · next operator found =>
        split at stuck
        · next active =>
            split at stuck
            · cases stuck
            · next unread => exact ⟨operator, found, active, unread⟩
        · cases stuck
    · split at stuck
      · split at stuck <;> cases stuck
      · split at stuck <;> cases stuck
      · split at stuck <;> cases stuck
      · cases stuck
  · rintro ⟨operator, found, active, unread⟩
    simp [bare, found, active, unread]

/-- Outside collections the texts without a rule are the unreadable ones. -/
theorem outside_eq_noRule_iff {context : Context} {char : Char} {text : List Char} :
    outside context char text = .noRule ↔ Unreadable context.magicness (char :: text) := by
  unfold outside
  split
  · next backslash =>
      subst backslash
      cases text with
      | nil => exact iff_of_true rfl .backslash
      | cons next text =>
          refine iff_of_false (covers_iff.1 (covers_escaped context next text)) ?_
          rintro ⟨⟩
  · next bare =>
      rw [bare_eq_noRule_iff]
      constructor
      · rintro ⟨operator, found, active, unread⟩
        obtain rfl := Operator.char_of_ofChar? found
        rcases Operator.read?_eq_none_iff.1 unread with ⟨rfl, nothing⟩ | ⟨rfl, nothing⟩
        · exact .braces (Operator.isActive_braces.1 active)
            (Braces.read?_eq_none_iff.1 nothing)
        · exact .assertion (Operator.isActive_assertion.1 active)
            (Assertion.read?_eq_none_iff.1 nothing)
      · intro unreadable
        cases unreadable with
        | backslash => exact absurd rfl bare
        | braces veryMagic unspelled =>
            have nothing := Braces.read?_eq_none_iff.2 unspelled
            exact
              ⟨.braces, rfl, Operator.isActive_braces.2 veryMagic,
                Operator.read?_eq_none_iff.2 (.inl ⟨rfl, nothing⟩)⟩
        | assertion veryMagic unspelled =>
            have nothing := Assertion.read?_eq_none_iff.2 unspelled
            exact
              ⟨.assertion, rfl, Operator.isActive_assertion.2 veryMagic,
                Operator.read?_eq_none_iff.2 (.inr ⟨rfl, nothing⟩)⟩

end Verdict

/-- There is no rule for a text exactly if no collection is open and the text is unreadable. -/
theorem Context.verdict_eq_noRule_iff {context : Context} {char : Char} {text : List Char} :
    context.verdict char text = .noRule ↔
      (context.region = .initial ∨ context.region = .optionalMatch) ∧
        Unreadable context.magicness (char :: text) := by
  rw [← collection?_eq_none_iff]
  cases open? : context.collection? with
  | none => rw [verdict_outside open?, Verdict.outside_eq_noRule_iff, eq_self, true_and]
  | some withBreak =>
      rw [verdict_inside open?]
      refine iff_of_false (Verdict.covers_iff.1 (Verdict.covers_inCollection ..)) ?_
      rintro ⟨⟨⟩, _⟩

/-! ### Whole patterns -/

namespace Scan

/-- The pattern cannot be read since there is no rule for the text at this offset. -/
def Unmatched (scan : Scan) (position : Nat) : Prop :=
  ∃ column rest, scan.result = .error (.noRuleMatches position column rest)

theorem unmatched_iff_ending {scan : Scan} {position : Nat} :
    scan.Unmatched position ↔ ∃ rest, scan.ending = .noRule position rest := by
  rcases scan with ⟨items, terminus | enclosure | ⟨place, rest⟩ | ⟨_ | _, raw, place⟩⟩ <;>
    simp [Unmatched, result]

/-- No text without a rule is found before the offset where reading starts. -/
theorem Reads.le_noRule {context : Context} {position place : Nat} {text : List Char}
    {scan : Scan} {rest : String} (reads : Reads context position text scan)
    (stuck : scan.ending = .noRule place rest) : position ≤ place := by
  induction reads with
  | ended context position =>
      unfold endingOf at stuck
      dsimp only at stuck
      split at stuck <;> cases stuck
  | mark verdict _ inductionHypothesis =>
      exact Nat.le_trans (Nat.le_add_right _ _) (inductionHypothesis stuck)
  | token verdict raw place level _ inductionHypothesis =>
      exact Nat.le_trans (Nat.le_add_right _ _) (inductionHypothesis stuck)
  | fault => cases stuck
  | noRule =>
      cases stuck
      exact Nat.le_refl _

/-- Reading a pattern stops at a place for want of a rule exactly if there is none for the text
that is left there. -/
theorem Reaches.unmatched_iff_verdict {level : Magicness} {pattern : String} {items : List Item}
    {context : Context} {position : Nat} {char : Char} {text : List Char}
    (reaches : Reaches level pattern items context position (char :: text)) :
    (ofPattern level pattern).Unmatched position ↔ context.verdict char text = .noRule := by
  rw [unmatched_iff_ending, reaches.ofPattern_eq]
  change (∃ rest, (readFrom context position 0 (char :: text)).ending = _) ↔ _
  cases verdict : context.verdict char text with
  | noRule =>
      rw [readFrom, verdict]
      exact iff_of_true ⟨_, rfl⟩ rfl
  | fault fault extra =>
      rw [readFrom, verdict]
      exact iff_of_false (by rintro ⟨rest, ⟨⟩⟩) (by rintro ⟨⟩)
  | item content extra =>
      refine iff_of_false ?_ (by rintro ⟨⟩)
      rintro ⟨rest, stuck⟩
      rw [readFrom_item verdict] at stuck
      have later := (reads_readFrom _ _ _).le_noRule stuck
      have wide := char.utf8Size_pos
      rw [byteLength_cons] at later
      omega

/-- When a position has no rule: at a place with text left, reading stops for want of a rule
exactly if no collection is open and the text is unreadable.  So it never stops this way inside
a collection, and below very magic only at a single backslash at the end. -/
theorem Reaches.unmatched_iff {level : Magicness} {pattern : String} {items : List Item}
    {context : Context} {position : Nat} {char : Char} {text : List Char}
    (reaches : Reaches level pattern items context position (char :: text)) :
    ((ofPattern level pattern).Unmatched position ↔
        (context.region = .initial ∨ context.region = .optionalMatch) ∧
          Unreadable context.magicness (char :: text)) ∧
      (context.region = .collection → ¬(ofPattern level pattern).Unmatched position) ∧
        (context.magicness ≠ .veryMagic → (ofPattern level pattern).Unmatched position →
          char :: text = ['\\']) := by
  have decides := reaches.unmatched_iff_verdict.trans Context.verdict_eq_noRule_iff
  refine ⟨decides, ?_, ?_⟩
  · intro inside unmatched
    obtain ⟨state, _⟩ := decides.1 unmatched
    rw [inside] at state
    simp at state
  · intro bounded unmatched
    obtain ⟨_, unreadable⟩ := decides.1 unmatched
    cases unreadable with
    | backslash => rfl
    | braces veryMagic | assertion veryMagic => exact absurd veryMagic bounded

/-- In an optional sequence of very magic, an at sign needs the second sign of a look behind
after its digits. -/
theorem Reaches.unmatched_iff_distance :
    ∃ items context,
      Reaches .veryMagic "%[b@1<c]" items context 3 ['@', '1', '<', 'c', ']'] ∧
        (ofPattern .veryMagic "%[b@1<c]").Unmatched 3 ∧
          (context.region = .initial ∨ context.region = .optionalMatch) ∧
            Unreadable context.magicness ['@', '1', '<', 'c', ']'] := by
  have first : Reaches .veryMagic "%[b@1<c]" [] (.start .veryMagic) 0
      ['%', '[', 'b', '@', '1', '<', 'c', ']'] := .start
  have opening : (Context.start .veryMagic).verdict '%' ['[', 'b', '@', '1', '<', 'c', ']'] =
      .item (.lexeme .optionalOpen) 1 := rfl
  have second := first.item opening
  have letter : (contextAfter (.start .veryMagic) (.lexeme .optionalOpen)
      (String.ofList ['%', '[']) 0).verdict 'b' ['@', '1', '<', 'c', ']'] =
        .item (.lexeme (.literal (.plain 'b'))) 0 := rfl
  have reaches := second.item letter
  have stuck : (ofPattern .veryMagic "%[b@1<c]").ending = .noRule 3 "@1<c]" := by rfl
  have unmatched := unmatched_iff_ending.2 ⟨_, stuck⟩
  exact ⟨_, _, reaches, unmatched, reaches.unmatched_iff.1.1 unmatched⟩

end Scan

end VimPattern
