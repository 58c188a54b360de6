/-
Module: VimPattern.Proofs.Grammar.Dollars
Purpose: What a dollar leaves in the target, and when one is reported to end an alternative.
Main exports:
  Token.dollarText, Token.DollarEnds, Growth.openGroups, Growth.Step.openGroups_add,
  Growth.Step.dollarEnds_iff, Growth.Takes.dollarEnds_iff, dollars_of_convert
-/
import VimPattern.Proofs.Grammar.Acceptance
import VimPattern.Proofs.Grammar.Placed
import VimPattern.Proofs.Tree.Contributions

namespace VimPattern

/-!
What becomes of a dollar depends on the token after it, and on nothing before it.  Whether it
is reported depends on what comes before it as well: at the end of an alternative a dollar is
reported if no group is open there.  The growth knows its open groups as scopes; in the tokens
they are the openings that outnumber the closings.
-/

/-! ### Tokens -/

/-- A terminal symbol that ends the operand before it. -/
def Kind.endsOperand : Kind → Bool
  | .alternative | .conjunction | .groupClose | .optionalClose => true
  | _ => false

namespace Token

/-- The text that the token directly behind a dollar calls for, or the end of the pattern. -/
def dollarText (style : Style) (dollar : Token) (following : Option Token) : String :=
  if following.all fun token => token.kind.endsOperand then dollar.text style
  else if following.any isLineBreak then ""
  else if dollar.magicness = .veryMagic then dollar.text style
  else "\\$"

/-- At the place that the growth gives a dollar it leaves the text that is called for. -/
theorem anchorText_dollarPlace {dollar : Token} (kind : dollar.kind = .dollar)
    (following : Option Token) (style : Style) :
    Tree.anchorText style dollar (Growth.dollarPlace following) =
      dollarText style dollar following := by
  cases following with
  | none => rfl
  | some token =>
      have ends : Growth.endsOperand (some token) = token.kind.endsOperand := by
        rw [Growth.endsOperand]
        cases token.kind <;> rfl
      rw [Growth.dollarPlace, dollarText, ends, Option.all_some, Option.any_some]
      cases token.kind.endsOperand <;> cases token.isLineBreak <;>
        simp [Tree.anchorText, kind]

/-- How many of the tokens are this terminal symbol. -/
def howMany (kind : Kind) (tokens : List Token) : Nat :=
  tokens.countP fun token => token.kind == kind

@[simp] theorem howMany_nil (kind : Kind) : howMany kind [] = 0 := rfl

@[simp] theorem howMany_cons (kind : Kind) (token : Token) (others : List Token) :
    howMany kind (token :: others) = howMany kind others + if token.kind = kind then 1 else 0 := by
  simp [howMany, List.countP_cons]

/-- One of the tokens is a dollar before which as many groups are closed as are opened, and
directly behind it the alternative ends. -/
def DollarEnds (tokens : List Token) : Prop :=
  ∃ before dollar others, tokens = before ++ dollar :: others ∧ dollar.kind = .dollar ∧
    howMany .groupOpen before = howMany .groupClose before ∧
      others.head?.all fun token => token.kind == .alternative

end Token

/-! ### Growing -/

/-- The construct is a group. -/
def Scope.isGroup : Scope → Bool
  | .group _ _ => true
  | .optional _ _ => false

namespace Growth

/-- How many groups are open. -/
def openGroups (growth : Growth) : Nat :=
  growth.scopes.countP Scope.isGroup

/-- What stands outside all groups stands in no open one. -/
theorem outsideGroups_iff (growth : Growth) :
    growth.outsideGroups = true ↔ growth.openGroups = 0 := by
  rw [outsideGroups, openGroups, List.countP_eq_zero, List.all_eq_true]
  refine forall₂_congr fun scope _ => ?_
  cases scope <;> simp [Scope.isGroup]

@[simp] theorem openGroups_withPieces (growth : Growth) (pieces : Tree .concat) :
    (growth.withPieces pieces).openGroups = growth.openGroups := by
  rcases growth with ⟨base, _ | ⟨⟨opener, draft⟩ | ⟨opener, inner⟩, outer⟩, collection, ends⟩ <;>
    simp [withPieces, openGroups, List.countP_cons, Scope.isGroup]

@[simp] theorem openGroups_add (growth : Growth) (atom : Tree .atom) :
    (growth.add atom).openGroups = growth.openGroups := by
  rw [add, openGroups_withPieces]

@[simp] theorem openGroups_withDraft (growth : Growth) (draft : Draft) :
    (growth.withDraft draft).openGroups = growth.openGroups := by
  rcases growth with ⟨base, _ | ⟨⟨opener, old⟩ | ⟨opener, inner⟩, outer⟩, collection, ends⟩ <;>
    simp [withDraft, openGroups, List.countP_cons, Scope.isGroup]

variable {growth after : Growth} {token : Token} {following : Option Token}

/-- A step opens a group if its token does, and closes one if its token does. -/
theorem Step.openGroups_add (taken : Step growth token following after) :
    after.openGroups + Token.howMany .groupClose [token] =
      growth.openGroups + Token.howMany .groupOpen [token] := by
  cases taken with
  | member inside kind =>
      rw [Token.howMany, Token.howMany]
      simp [kind, openGroups]
  | collectionClose inside kind =>
      rw [Growth.openGroups_add]
      simp [kind, openGroups]
  | literal outside kind => simp [kind]
  | caret outside kind => simp [kind]
  | dollar outside kind =>
      have same : (growth.addDollar token following).openGroups = growth.openGroups :=
        Growth.openGroups_add growth (.anchor token (dollarPlace following))
      simp [kind, same]
  | quantifier outside kind last => simp [kind]
  | assertion outside kind last => simp [kind]
  | conjunction outside kind drafting => simp [kind]
  | alternative outside kind drafting => simp [kind]
  | groupOpen outside kind => simp [kind, openGroups, List.countP_cons, Scope.isGroup]
  | groupClose outside kind scopes =>
      rw [Growth.openGroups_add]
      simp [kind, openGroups, scopes, List.countP_cons, Scope.isGroup]
  | collectionOpen outside kind => simp [kind, openGroups]
  | optionalOpen outside kind => simp [kind, openGroups, Scope.isGroup]
  | optionalClose outside kind scopes nonempty =>
      rw [Growth.openGroups_add]
      simp [kind, openGroups, scopes, Scope.isGroup]

/-- A step notes a dollar outside all groups at the end of an alternative, and nothing else. -/
theorem Step.dollarEnds_iff (taken : Step growth token following after) :
    after.dollarEnds = true ↔ growth.dollarEnds = true ∨
      token.kind = .dollar ∧ growth.openGroups = 0 ∧ endsAlternative following = true := by
  cases taken with
  | dollar outside kind => simp [addDollar, kind, outsideGroups_iff]
  | member inside kind => simp [kind]
  | collectionClose inside kind => simp [kind]
  | literal outside kind => simp [kind]
  | caret outside kind => simp [kind]
  | quantifier outside kind last => simp [kind]
  | assertion outside kind last => simp [kind]
  | conjunction outside kind drafting => simp [kind]
  | alternative outside kind drafting => simp [kind]
  | groupOpen outside kind => simp [kind]
  | groupClose outside kind scopes => simp [kind]
  | collectionOpen outside kind => simp [kind]
  | optionalOpen outside kind => simp [kind]
  | optionalClose outside kind scopes nonempty => simp [kind]

/-- Taking tokens notes the dollars among them that end an alternative where no group is open:
none of those open before, and none that the tokens up to the dollar open. -/
theorem Takes.dollarEnds_iff {behind : Option Token} {tokens : List Token}
    (takes : Takes behind growth tokens after) :
    after.dollarEnds = true ↔ growth.dollarEnds = true ∨
      ∃ before dollar others, tokens = before ++ dollar :: others ∧ dollar.kind = .dollar ∧
        growth.openGroups + Token.howMany .groupOpen before = Token.howMany .groupClose before ∧
          endsAlternative (others.head?.or behind) = true := by
  induction takes with
  | done => simp
  | @step growth middle after token others first _ inductionHypothesis =>
      have depth := first.openGroups_add
      rw [inductionHypothesis, first.dollarEnds_iff, or_assoc]
      refine or_congr_right ?_
      constructor
      · rintro (⟨kind, level, ends⟩ | ⟨before, dollar, others, rfl, kind, level, ends⟩)
        · exact ⟨[], token, others, rfl, kind, level, ends⟩
        · refine ⟨token :: before, dollar, others, rfl, kind, ?_, ends⟩
          simp at depth ⊢
          omega
      · rintro ⟨_ | ⟨head, before⟩, dollar, rest, split, kind, level, ends⟩
        · cases split
          exact .inl ⟨kind, level, ends⟩
        · cases split
          refine .inr ⟨before, dollar, rest, rfl, kind, ?_, ends⟩
          simp at depth level
          omega

/-- From the start, a dollar is noted exactly if one of the tokens is a dollar that ends an
alternative outside all groups. -/
theorem Takes.dollarEnds_iff_of_new {tokens : List Token} (takes : Takes none {} tokens after) :
    after.dollarEnds = true ↔ Token.DollarEnds tokens := by
  have ends (following : Option Token) : endsAlternative following =
      following.all fun token => token.kind == .alternative := by
    cases following <;> rfl
  rw [takes.dollarEnds_iff, Token.DollarEnds]
  simp [openGroups, ends]

end Growth

/-- In a pattern that converts each dollar contributes to the target the text that the token
directly behind it calls for, or the end of the pattern.  And the conversion reports a dollar at
the end of an alternative exactly if there is one before which as many groups are closed as are
opened. -/
theorem dollars_of_convert {options : Options} {pattern : String} {conversion : Conversion}
    (converted : convert options pattern = .ok conversion) :
    (Trace.ofPattern options pattern).text = conversion.converted ∧
      (∀ before dollar others,
        (Scan.ofPattern options.magicness pattern).tokens = before ++ dollar :: others →
          dollar.kind = .dollar →
            ∀ style : Style, style.options = options →
              (Trace.ofPattern options pattern).Contributes before dollar
                (Token.dollarText style dollar others.head?)) ∧
        (conversion.metadata.matchesMagicDollar = true ↔
          Token.DollarEnds (Scan.ofPattern options.magicness pattern).tokens) := by
  obtain ⟨grown, complete, _, whole⟩ := exists_grown_of_convert converted
  refine ⟨Trace.text_ofPattern converted, ?_, ?_⟩
  · intro before dollar others tokens kind style same
    obtain ⟨front, back, placed, rfl, rfl⟩ := Tree.exists_placed_dollar complete tokens kind
    rw [← Token.anchorText_dollarPlace kind]
    exact Trace.contributes_ofPattern complete placed tokens (.inr kind) same
  · cases empty : pattern.isEmpty with
    | true =>
        obtain rfl : pattern = "" := by simpa using empty
        cases converted
        refine iff_of_false Bool.false_ne_true ?_
        rintro ⟨before, dollar, others, split, _⟩
        cases before <;> cases split
    | false =>
        obtain ⟨_, after, _, takes, _, ends, _⟩ := Growth.takes_of_run_eq_ok complete
        rw [whole empty]
        change grown.dollarEnds = true ↔ _
        rw [ends, takes.dollarEnds_iff_of_new]

/-- In a group a dollar between two characters stands for itself, and none that stands in the
group is reported; the one behind the group is. -/
theorem dollars_behind_group :
    let dollar : Token := { lexeme := .dollar, raw := "$", position := 7, magicness := .magic }
    let before : List Token :=
      [{ lexeme := .groupOpen (.capturing 1), raw := "\\(", position := 0, magicness := .magic },
        { lexeme := .literal (.plain 'a'), raw := "a", position := 2, magicness := .magic },
        { lexeme := .dollar, raw := "$", position := 3, magicness := .magic },
        { lexeme := .alternative, raw := "\\|", position := 4, magicness := .magic },
        { lexeme := .literal (.plain 'b'), raw := "b", position := 6, magicness := .magic }]
    let others : List Token :=
      [{ lexeme := .literal (.plain 'c'), raw := "c", position := 8, magicness := .magic },
        { lexeme := .groupClose, raw := "\\)", position := 9, magicness := .magic },
        { lexeme := .dollar, raw := "$", position := 11, magicness := .magic }]
    convert {} "\\(a$\\|b$c\\)$" =
        .ok
          { converted := "(a$|b\\$c)$"
            ignoreCase := false
            magicness := .magic
            metadata := { matchesMagicDollar := true } } ∧
      (Scan.ofPattern .magic "\\(a$\\|b$c\\)$").tokens = before ++ dollar :: others ∧
        (Trace.ofPattern {} "\\(a$\\|b$c\\)$").text = "(a$|b\\$c)$" ∧
          (Trace.ofPattern {} "\\(a$\\|b$c\\)$").Contributes before dollar "\\$" ∧
            Token.DollarEnds (Scan.ofPattern .magic "\\(a$\\|b$c\\)$").tokens := by
  intro dollar before others
  have converted :
      convert {} "\\(a$\\|b$c\\)$" =
        .ok
          { converted := "(a$|b\\$c)$"
            ignoreCase := false
            magicness := .magic
            metadata := { matchesMagicDollar := true } } := by
    rfl
  have tokens : (Scan.ofPattern .magic "\\(a$\\|b$c\\)$").tokens =
      before ++ dollar :: others := by
    decide +kernel
  obtain ⟨text, contributes, reports⟩ := dollars_of_convert converted
  exact ⟨converted, tokens, text, contributes before dollar others tokens rfl { options := {} } rfl,
    reports.1 rfl⟩

end VimPattern
