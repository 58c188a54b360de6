/-
Module: VimPattern.Proofs.Grammar.LineStart
Purpose: Where a line starts, for the reading of a star and for the place of a caret.
Main exports:
  Token.startsLine, Token.operand?, Token.caretPlace, Token.contested,
  Scan.Reaches.starIsLiteral_eq, Growth.Trail, Growth.Takes.trail,
  Growth.Trail.caretPlace_eq, Growth.Trail.agrees_iff, star_agrees_iff, star_disagrees
-/
import Mathlib.Data.List.Induction
import VimPattern.Proofs.Grammar.Acceptance
import VimPattern.Proofs.Grammar.Placed
import VimPattern.Proofs.Grammar.Unclosed
import VimPattern.Proofs.Scan.Sites
import VimPattern.Proofs.Scan.Tokens
import VimPattern.Proofs.Tree.Parts

namespace VimPattern

/-!
Behind a caret at the start of a line a bare star stands for itself.  The reading decides
this by the token before the caret, the growth gives the caret its place by the piece before
it, and neither knows of the other.  Here both notions are expressed by the tokens before the
caret, so that they can be compared: the reading goes by the last of them, the growth by the
last one that is no repetition, unless it stands in an optional sequence.
-/

/-! ### The tokens before a caret -/

/-- A terminal symbol that repeats the piece before it, or asserts it. -/
def Kind.isRepetition : Kind → Bool
  | .quantifier | .assertion => true
  | _ => false

/-- A terminal symbol that begins a new operand, so that nothing of it has come yet. -/
def Kind.beginsOperand : Kind → Bool
  | .alternative | .conjunction | .groupOpen => true
  | _ => false

namespace Token

/-- The token repeats the piece before it, or asserts it. -/
def isRepetition (token : Token) : Bool :=
  token.kind.isRepetition

/-- The token begins a new operand. -/
def beginsOperand (token : Token) : Bool :=
  token.kind.beginsOperand

/-- Right behind these tokens a line starts, for the reading. -/
def startsLine (tokens : List Token) : Bool :=
  tokens.getLast?.all fun token => token.isLineBreak || token.beginsOperand

/-- The last of the tokens that is no repetition. -/
def operand? (tokens : List Token) : Option Token :=
  tokens.reverse.find? fun token => !token.isRepetition

/-- The construct that these tokens leave open last is an optional sequence. -/
def inOptional (tokens : List Token) : Bool :=
  (unclosed tokens).head?.any fun opener => opener.kind == .optionalOpen

/-- The place of a caret behind these tokens, for the growth. -/
def caretPlace (tokens : List Token) : Place :=
  if inOptional tokens then .inside
  else
    match operand? tokens with
    | none => .edge
    | some token =>
        if token.beginsOperand then .edge
        else if token.isLineBreak then .besideBreak
        else .inside

/-- The tokens before a caret for which reading and growing come to different answers: a line
break directly before it in an optional sequence, and outside of one a line break with
repetitions between it and the caret. -/
def contested (tokens : List Token) : Bool :=
  if inOptional tokens then tokens.getLast?.any isLineBreak
  else tokens.getLast?.any isRepetition && (operand? tokens).any isLineBreak

/-- What begins an operand repeats nothing. -/
theorem isRepetition_of_beginsOperand {token : Token} (begins : token.beginsOperand = true) :
    token.isRepetition = false := by
  unfold beginsOperand at begins
  unfold isRepetition
  cases kind : token.kind <;> rw [kind] at begins <;> cases begins <;> rfl

@[simp] theorem startsLine_concat (tokens : List Token) (token : Token) :
    startsLine (tokens ++ [token]) = (token.isLineBreak || token.beginsOperand) := by
  simp [startsLine]

/-- A token behind the others is the operand, unless it repeats the one before. -/
theorem operand?_concat (tokens : List Token) (token : Token) :
    operand? (tokens ++ [token]) =
      if token.isRepetition then operand? tokens else some token := by
  unfold operand?
  rw [List.reverse_append, List.reverse_singleton, List.singleton_append, List.find?_cons]
  cases token.isRepetition <;> rfl

end Token

/-! ### Reading -/

/-- The two notes that the reading makes for a star are about the tokens read so far: whether a
line starts behind them, and whether the last one is a caret and a line starts before it. -/
theorem Scan.Reaches.starIsLiteral_eq {level : Magicness} {pattern : String}
    {items : List Item} {context : Context} {position : Nat} {rest : List Char}
    (reaches : Reaches level pattern items context position rest) :
    context.atLineStart = Token.startsLine (items.filterMap Item.token?) ∧
      ∀ before token, items.filterMap Item.token? = before ++ [token] →
        context.starIsLiteral = (token.kind == .caret && Token.startsLine before) := by
  induction reaches with
  | start =>
      refine ⟨rfl, ?_⟩
      intro before token none
      cases before <;> cases none
  | @item items context position char text content extra before verdict
      inductionHypothesis =>
      obtain ⟨atLineStart, starIsLiteral⟩ := inductionHypothesis
      cases content with
      | mark mark =>
          have same : ((items ++ [itemAt context (.mark mark) (char :: text.take extra)
              position]).filterMap Item.token?) = items.filterMap Item.token? := by
            rw [List.filterMap_append]
            exact List.append_nil _
          rw [same]
          cases mark <;> exact ⟨atLineStart, starIsLiteral⟩
      | lexeme lexeme =>
          let token : Token :=
            { lexeme := lexeme
              raw := String.ofList (char :: text.take extra)
              position := position
              magicness := context.magicness }
          have same : ((items ++ [itemAt context (.lexeme lexeme) (char :: text.take extra)
              position]).filterMap Item.token?) = items.filterMap Item.token? ++ [token] := by
            rw [List.filterMap_append]
            rfl
          rw [same]
          refine ⟨?_, ?_⟩
          · rw [Token.startsLine_concat, Token.beginsOperand]
            change (token.isLineBreak || token.kind == .alternative ||
              token.kind == .conjunction || token.kind == .groupOpen) = _
            rw [Bool.or_assoc, Bool.or_assoc]
            cases token.kind <;> rfl
          · intro earlier last split
            obtain ⟨rfl, single⟩ := List.append_inj' split rfl
            cases single
            rw [← atLineStart]
            rfl

/-! ### Growing -/

/-- Only literals are spelled as line breaks. -/
theorem Token.LiteralBreak.isLineBreak_eq_false {token : Token} (breaks : token.LiteralBreak)
    (kind : token.kind ≠ .literal) : token.isLineBreak = false := by
  rw [Bool.eq_false_iff]
  exact fun spelled => kind (breaks spelled)

/-- No repetition is spelled as a line break. -/
theorem Token.LiteralBreak.isLineBreak_of_isRepetition {token : Token}
    (breaks : token.LiteralBreak) (repeats : token.isRepetition = true) :
    token.isLineBreak = false := by
  apply breaks.isLineBreak_eq_false
  intro literal
  rw [isRepetition, literal] at repeats
  cases repeats

namespace Growth

/-- The next piece would be one of an optional sequence. -/
def inOptional (growth : Growth) : Bool :=
  match growth.scopes with
  | .optional _ _ :: _ => true
  | _ => false

/-- What the pieces of the innermost construct look like behind these tokens: there are none
at the start, behind a token that begins an operand and behind the opening of an optional
sequence; otherwise the last piece starts with a line break exactly if the last token that is
no repetition is one. -/
inductive Trail (growth : Growth) : List Token → Prop where
  | start (nothing : growth.pieces = .empty) (sequence : growth.inOptional = false) :
      Trail growth []
  | operand {front : List Token} {last : Token} (begins : last.beginsOperand = true)
      (nothing : growth.pieces = .empty) (sequence : growth.inOptional = false) :
      Trail growth (front ++ [last])
  | sequence {front : List Token} {last : Token} (kind : last.kind = .optionalOpen)
      (nothing : growth.pieces = .empty) (sequence : growth.inOptional = true) :
      Trail growth (front ++ [last])
  | piece {front : List Token} {last operand : Token} {pieces : Tree .concat}
      {piece : Tree .piece} (goesOn : last.beginsOperand = false)
      (ends : growth.pieces = .snoc pieces piece)
      (operates : Token.operand? (front ++ [last]) = some operand)
      (within : operand.beginsOperand = false)
      (starts : piece.startsWithBreak = operand.isLineBreak) :
      Trail growth (front ++ [last])

/-- Where a draft is growing, the next piece is none of an optional sequence. -/
theorem inOptional_of_draft? {growth : Growth} {draft : Draft}
    (drafting : growth.draft? = some draft) : growth.inOptional = false := by
  rcases growth with ⟨base, _ | ⟨_ | _, outer⟩, collection, dollarEnds⟩
  · rfl
  · rfl
  · cases drafting

section

variable {growth middle : Growth} {front : List Token} {last : Token} {kind : Kind}
  (same : last.kind = kind)
include same

/-- Behind an atom the trail ends with the atom, given how it starts and which token it ends
with. -/
theorem Trail.atom {pieces : Tree .concat} {atom : Tree .atom}
    (single : kind.isRepetition = false) (goesOn : kind.beginsOperand = false)
    (added : growth.pieces = .snoc pieces (.bare atom))
    (starts : (Tree.bare atom).startsWithBreak = last.isLineBreak) :
    Trail growth (front ++ [last]) := by
  subst same
  have operates : Token.operand? (front ++ [last]) = some last := by
    rw [Token.operand?_concat, Token.isRepetition, single]
    rfl
  exact .piece goesOn added operates goesOn starts

/-- A repetition behind a piece leaves the trail as it was. -/
theorem Trail.repetition {before pieces : Tree .concat} {old piece : Tree .piece}
    (trail : Trail middle front) (repeats : kind.isRepetition = true)
    (goesOn : kind.beginsOperand = false) (found : middle.pieces = .snoc before old)
    (changed : growth.pieces = .snoc pieces piece)
    (starts : piece.startsWithBreak = old.startsWithBreak) :
    Trail growth (front ++ [last]) := by
  subst same
  cases trail with
  | start nothing => cases found.symm.trans nothing
  | operand _ nothing => cases found.symm.trans nothing
  | sequence _ nothing => cases found.symm.trans nothing
  | @piece early earlier operand _ _ _ ends operates within oldStarts =>
      cases found.symm.trans ends
      refine .piece goesOn changed ?_ within (starts.trans oldStarts)
      rw [Token.operand?_concat, Token.isRepetition, repeats]
      exact operates

/-- A separator leaves a draft without pieces. -/
theorem Trail.separator {draft renewed : Draft} (begins : kind.beginsOperand = true)
    (drafting : middle.draft? = some draft) (nothing : renewed.pieces = .empty) :
    Trail (middle.withDraft renewed) (front ++ [last]) := by
  subst same
  have after := draft?_withDraft drafting renewed
  refine .operand begins ?_ (inOptional_of_draft? after)
  rw [pieces_eq_of_draft? after, nothing]

end

/-- The tokens that are taken leave such a trail. -/
theorem Takes.trail {behind : Option Token} {growth : Growth} {tokens : List Token}
    (takes : Takes behind {} tokens growth) (outside : growth.collection = none)
    (breaks : ∀ token ∈ tokens, token.LiteralBreak) : Trail growth tokens := by
  induction tokens using List.reverseRecOn generalizing behind growth with
  | nil =>
      cases takes
      exact .start rfl rfl
  | append_singleton front last inductionHypothesis =>
      obtain ⟨middle, early, taken⟩ := takes.exists_last
      obtain ⟨breaksFront, breaksLast⟩ := List.forall_mem_append.1 breaks
      have lastBreak := breaksLast last (.head _)
      have kinded := Kinded.new.takes early
      -- What is closed was opened by one of the tokens before, which is no line break.
      have closed (opener : Token) {kind : Kind} (among : opener ∈ middle.openers)
          (same : last.kind = kind) (closes : kind ≠ .literal) :
          opener.isLineBreak = last.isLineBreak := by
        have opens := kinded.opens among
        rw [early.openers_eq] at among
        have member := Token.unclosed_subset front among
        rw [(breaksFront opener member).isLineBreak_eq_false opens,
          lastBreak.isLineBreak_eq_false (same ▸ closes)]
      cases taken with
      | member inside kind => cases outside
      | collectionOpen _ kind => cases outside
      | @collectionClose opener members inside kind =>
          have among : opener ∈ middle.openers := by
            rw [openers, inside]
            exact .head _
          exact .atom kind rfl rfl (pieces_add _ _) (closed opener among kind (by decide))
      | literal _ kind => exact .atom kind rfl rfl (pieces_add _ _) rfl
      | caret _ kind => exact .atom kind rfl rfl (pieces_add _ _) rfl
      | dollar _ kind =>
          exact .atom kind rfl rfl (pieces_add middle (.anchor last (dollarPlace _))) rfl
      | quantifier within kind ends =>
          exact .repetition kind (inductionHypothesis early within breaksFront) rfl rfl ends
            (pieces_withPieces _ _) (Tree.startsWithBreak_quantified _ _)
      | assertion within kind ends =>
          exact .repetition kind (inductionHypothesis early within breaksFront) rfl rfl ends
            (pieces_withPieces _ _) (Tree.startsWithBreak_asserted _ _)
      | conjunction _ kind drafting => exact .separator kind rfl drafting rfl
      | alternative _ kind drafting => exact .separator kind rfl drafting rfl
      | groupOpen _ kind =>
          refine .operand ?_ rfl rfl
          rw [Token.beginsOperand, kind]
          rfl
      | @groupClose opener draft outer within kind scopes =>
          have among : opener ∈ middle.openers := by
            rw [openers_of_scopes within scopes]
            exact .head _
          exact .atom kind rfl rfl (pieces_add _ _) (closed opener among kind (by decide))
      | optionalOpen _ kind => exact .sequence kind rfl rfl
      | @optionalClose opener pieces outer within kind scopes nonempty =>
          have among : opener ∈ middle.openers := by
            rw [openers_of_scopes within scopes]
            exact .head _
          exact .atom kind rfl rfl (pieces_add _ _) (closed opener among kind (by decide))

/-- Where the next piece would be one of an optional sequence, the tokens leave one open. -/
theorem Takes.inOptional_eq {behind : Option Token} {growth : Growth} {tokens : List Token}
    (takes : Takes behind {} tokens growth) (outside : growth.collection = none) :
    growth.inOptional = Token.inOptional tokens := by
  have kinded := (Kinded.new.takes takes).scopes
  rw [Token.inOptional, ← takes.openers_eq, openers_outside outside, inOptional]
  rcases growth with ⟨base, _ | ⟨⟨opener, draft⟩ | ⟨opener, pieces⟩, outer⟩, collection, ends⟩
  · rfl
  · have opens : opener.kind = .groupOpen := (kinded _ (.head _)).1
    simp [Scope.opener, opens]
  · have opens : opener.kind = .optionalOpen := (kinded _ (.head _)).1
    simp [Scope.opener, opens]

/-- In an optional sequence a caret is inside; elsewhere its place depends on the piece before
it. -/
theorem caretPlace_eq_ite (growth : Growth) :
    growth.caretPlace =
      if growth.inOptional then .inside
      else
        match growth.pieces with
        | .empty => .edge
        | .snoc _ piece => if piece.startsWithBreak then .besideBreak else .inside := by
  rcases growth with ⟨base, _ | ⟨⟨opener, draft⟩ | ⟨opener, inner⟩, outer⟩, collection, ends⟩
  · rw [caretPlace, inOptional]
    cases (Growth.pieces _) <;> rfl
  · rw [caretPlace, inOptional]
    cases (Growth.pieces _) <;> rfl
  · rfl

/-- Behind the tokens that have been taken a caret gets the place that they say. -/
theorem Trail.caretPlace_eq {growth : Growth} {tokens : List Token}
    (trail : Trail growth tokens) (sequence : growth.inOptional = Token.inOptional tokens) :
    growth.caretPlace = Token.caretPlace tokens := by
  rw [caretPlace_eq_ite, Token.caretPlace, ← sequence]
  cases trail with
  | start nothing outside =>
      rw [outside, nothing]
      rfl
  | @operand front last begins nothing outside =>
      have single := Token.isRepetition_of_beginsOperand begins
      rw [outside, nothing, Token.operand?_concat, single]
      simp [begins]
  | sequence kind nothing inside => rw [inside, if_pos rfl, if_pos rfl]
  | piece goesOn ends operates within starts =>
      rw [ends, operates]
      simp [within, starts]

/-- Reading and growing agree about a caret behind these tokens unless they are contested. -/
theorem Trail.agrees_iff {growth : Growth} {tokens : List Token} (trail : Trail growth tokens)
    (sequence : growth.inOptional = Token.inOptional tokens)
    (breaks : ∀ token ∈ tokens, token.LiteralBreak) :
    (Token.startsLine tokens = true ↔ growth.caretPlace ≠ .inside) ↔
      Token.contested tokens = false := by
  rw [caretPlace_eq_ite, Token.contested, ← sequence]
  cases trail with
  | start nothing outside =>
      rw [outside, nothing]
      simp [Token.startsLine]
  | @operand front last begins nothing outside =>
      rw [outside, nothing]
      simp [begins, Token.isRepetition_of_beginsOperand begins]
  | @sequence front last kind nothing inside =>
      have goesOn : last.beginsOperand = false := by
        rw [Token.beginsOperand, kind]
        rfl
      rw [inside]
      simp [goesOn]
  | @piece front last operand pieces piece goesOn ends operates within starts =>
      rw [ends, operates]
      cases growth.inOptional with
      | true => simp [goesOn]
      | false =>
          cases repeats : last.isRepetition with
          | false =>
              -- The last token is the operand itself.
              rw [Token.operand?_concat, repeats] at operates
              cases operates
              simp [goesOn, repeats, starts]
          | true =>
              have spelled := (breaks last (by simp)).isLineBreak_of_isRepetition repeats
              simp [goesOn, repeats, spelled, starts]

end Growth

/-! ### Stars behind carets -/

/-- Outside collections a bare star is read by the note that the reading has made for it,
where bare stars are operators. -/
theorem Context.verdict_bareStar {context : Context} (outside : context.collection? = none)
    (level : context.magicness = .magic ∨ context.magicness = .veryMagic) (text : List Char) :
    context.verdict '*' text =
      .item
        (.lexeme (if context.starIsLiteral then .literal (.plain '*') else .quantifier .star))
        0 := by
  have active : Operator.star.isActive context.magicness false = true := by
    rcases level with level | level <;> rw [level] <;> rfl
  have star : Operator.ofChar? '*' = some .star := rfl
  rw [verdict_outside outside, Verdict.outside, if_neg (by decide)]
  unfold Verdict.bare
  rw [star]
  dsimp only
  rw [if_pos active, Operator.read?]
  cases context.starIsLiteral <;> rfl

/-- A bare star behind a caret stands for itself exactly if a line starts before the caret. -/
theorem Scan.lexeme_of_bareStar {level : Magicness} {pattern : String} {after : Growth}
    {before others : List Token} {caret star : Token}
    (tokens : (ofPattern level pattern).tokens = before ++ caret :: star :: others)
    (takes : Growth.Takes none {} (ofPattern level pattern).tokens after)
    (kind : caret.kind = .caret) (bare : star.raw = "*")
    (magic : star.magicness = .magic ∨ star.magicness = .veryMagic) :
    star.lexeme =
      if Token.startsLine before then .literal (.plain '*') else .quantifier .star := by
  have split : (ofPattern level pattern).tokens = (before ++ [caret]) ++ star :: others := by
    rw [tokens, List.append_assoc]
    rfl
  obtain ⟨items, context, char, text, extra, reaches, read, verdict, raw, readAt⟩ :=
    exists_reaches_token split
  -- The growth is outside collections behind the caret, and so is the reading.
  have outside : context.collection? = none := by
    rw [split] at takes
    obtain ⟨growth, _, early, _, _⟩ := takes.exists_split
    obtain ⟨middle, _, last⟩ := early.exists_last
    have free : growth.collection = none := by
      cases last with
      | caret outside _ => rw [Growth.collection_add, outside]
      | _ => simp_all
    have follows := reaches.follows (read ▸ early)
    have same := follows.isSome_collection? (Growth.Kinded.new.takes early)
    rw [free, Option.isSome_none, Option.isSome_eq_false_iff, Option.isNone_iff_eq_none] at same
    exact same
  have noted := reaches.starIsLiteral_eq.2 before caret read
  rw [kind, beq_self_eq_true, Bool.true_and] at noted
  have first : char = '*' := by
    have characters := congrArg String.toList (raw.symm.trans bare)
    rw [String.toList_ofList] at characters
    exact (List.cons_eq_cons.1 characters).1
  rw [first, Context.verdict_bareStar outside (readAt ▸ magic), noted] at verdict
  injection verdict with content
  injection content with lexeme
  exact lexeme.symm

/-! ### Whole patterns -/

/-- In a pattern that converts, take a caret and a bare star right behind it, where bare stars
are operators.  The star stands for itself or repeats, and the caret has a place in the tree;
both follow from the tokens before the caret.  The star stands for itself exactly where the
caret is at the start of a line or behind a line break, and repeats exactly where the caret
stands inside, unless these tokens are contested. -/
theorem star_agrees_iff {options : Options} {pattern : String} {conversion : Conversion}
    (converted : convert options pattern = .ok conversion) {before others : List Token}
    {caret star : Token}
    (tokens : (Scan.ofPattern options.magicness pattern).tokens =
      before ++ caret :: star :: others)
    (kind : caret.kind = .caret) (bare : star.raw = "*")
    (magic : star.magicness = .magic ∨ star.magicness = .veryMagic) :
    ∃ grown front back place,
      Tree.ofScan (Scan.ofPattern options.magicness pattern) = .ok grown ∧
        conversion = .ofGrown options (foldsCase options pattern) grown ∧
          grown.tree.placed = front ++ (caret, some place) :: back ∧
            front.map Prod.fst = before ∧ back.map Prod.fst = star :: others ∧
              place = Token.caretPlace before ∧
                star.lexeme =
                    (if Token.startsLine before then .literal (.plain '*')
                      else .quantifier .star) ∧
                  (((star.kind = .literal ↔ place ≠ .inside) ∧
                      (star.kind = .quantifier ↔ place = .inside)) ↔
                    Token.contested before = false) := by
  obtain ⟨grown, complete, _, same⟩ := exists_grown_of_convert converted
  have nonempty : pattern.isEmpty = false := by
    rw [Bool.eq_false_iff]
    intro empty
    obtain rfl : pattern = "" := by simpa using empty
    cases before <;> cases tokens
  obtain ⟨growth, front, back, takes, outside, placed, sameFront, sameBack⟩ :=
    Tree.exists_placed_caret complete tokens kind
  obtain ⟨_, after, _, all, _⟩ := Growth.takes_of_run_eq_ok complete
  have lexeme := Scan.lexeme_of_bareStar tokens all kind bare magic
  have breaks : ∀ token ∈ before, token.LiteralBreak := by
    intro token member
    apply (Scan.reads_ofPattern options.magicness pattern).literalBreak token
    rw [tokens]
    exact List.mem_append_left _ member
  have trail := takes.trail outside breaks
  have sequence := takes.inOptional_eq outside
  refine ⟨grown, front, back, growth.caretPlace, complete, same nonempty, placed, sameFront,
    sameBack, trail.caretPlace_eq sequence, lexeme, ?_⟩
  rw [← trail.agrees_iff sequence breaks]
  unfold Token.kind
  rw [lexeme]
  cases Token.startsLine before <;> simp [Lexeme.kind]

/-- Behind a separator both come to the same answer. -/
theorem star_agrees_separated :
    let caret : Token := { lexeme := .caret, raw := "^", position := 3, magicness := .magic }
    let star : Token :=
      { lexeme := .literal (.plain '*'), raw := "*", position := 4, magicness := .magic }
    convert {} "a\\|^*b" =
        .ok
          { converted := "a|^\\*b"
            ignoreCase := false
            magicness := .magic
            metadata := {} } ∧
      ∃ grown front back place,
        Tree.ofScan (Scan.ofPattern .magic "a\\|^*b") = .ok grown ∧
          grown.tree.placed = front ++ (caret, some place) :: back ∧
            (star.kind = .literal ↔ place ≠ .inside) ∧
              (star.kind = .quantifier ↔ place = .inside) := by
  intro caret star
  have converted :
      convert {} "a\\|^*b" =
        .ok
          { converted := "a|^\\*b"
            ignoreCase := false
            magicness := .magic
            metadata := {} } := by
    rfl
  let before : List Token :=
    [{ lexeme := .literal (.plain 'a'), raw := "a", position := 0, magicness := .magic },
      { lexeme := .alternative, raw := "\\|", position := 1, magicness := .magic }]
  let others : List Token :=
    [{ lexeme := .literal (.plain 'b'), raw := "b", position := 5, magicness := .magic }]
  have tokens :
      (Scan.ofPattern .magic "a\\|^*b").tokens = before ++ caret :: star :: others := by
    decide +kernel
  obtain ⟨grown, front, back, place, complete, _, placed, _, _, _, _, agrees⟩ :=
    star_agrees_iff converted tokens rfl rfl (.inl rfl)
  exact ⟨converted, grown, front, back, place, complete, placed, agrees.2 (by decide)⟩

/-- They do not where a repetition stands between a line break and the caret: the caret is
dropped as one behind a line break, and the star repeats what is repeated already.  Nor do they
behind a line break in an optional sequence, where the star is itself and the caret inside. -/
theorem star_disagrees :
    (convert {} "\\n\\+^*" =
        .ok
          { converted := "\\n+*"
            ignoreCase := false
            magicness := .magic
            metadata := {} } ∧
      (Tree.ofScan (Scan.ofPattern .magic "\\n\\+^*")).map (fun grown =>
          grown.tree.placed.map fun entry => (entry.1.kind, entry.2)) =
        .ok
          [(.literal, none), (.quantifier, none), (.caret, some .besideBreak),
            (.quantifier, none)]) ∧
      convert {} "\\%[\\n^*]" =
          .ok
            { converted := "(?:\\n\\^\\*|\\n\\^|\\n|)"
              ignoreCase := false
              magicness := .magic
              metadata := {} } ∧
        (Tree.ofScan (Scan.ofPattern .magic "\\%[\\n^*]")).map (fun grown =>
            grown.tree.placed.map fun entry => (entry.1.kind, entry.2)) =
          .ok
            [(.optionalOpen, none), (.literal, none), (.caret, some .inside),
              (.literal, none), (.optionalClose, none)] := by
  refine ⟨⟨rfl, rfl⟩, rfl, rfl⟩

end VimPattern
