/-
Module: VimPattern.Proofs.Grammar.Implied
Purpose: Where the line break that a dropped dollar relies on has to be matched.
Main exports:
  Tree.DropsDollar, BeforeBreak, Implied, Token.Released, Growth.Guarded,
  Growth.Takes.endsBehindDollar_iff, Growth.Takes.everywhere_implied_iff, implied_iff,
  implied_fails
-/
import VimPattern.Proofs.Grammar.Consumption
import VimPattern.Proofs.Grammar.Operands

namespace VimPattern

/-!
A dollar before a line break is dropped, since the break says that a line ends there.  It says
so only if the match cannot do without it.  When the dollar is dropped the token behind it is
known, and not the repetitions behind that: with a quantifier that is content with nothing, or
with an assertion, the piece of the break matches without it, and then nothing is left of the
dollar.
-/

namespace Tree

/-- The last piece is a dollar that leaves nothing. -/
def DropsDollar (pieces : Tree .concat) : Prop :=
  ∃ front dollar, pieces = .snoc front (.bare (.anchor dollar .besideBreak)) ∧
    dollar.kind = .dollar

/-- Only a bare anchor is a dropped dollar. -/
theorem not_dropsDollar_empty : ¬empty.DropsDollar :=
  fun ⟨_, _, same, _⟩ => nomatch same

theorem not_dropsDollar_quantified (pieces : Tree .concat) (atom : Tree .atom)
    (quantifier : Token) : ¬(snoc pieces (.quantified atom quantifier)).DropsDollar :=
  fun ⟨_, _, same, _⟩ => nomatch same

theorem not_dropsDollar_asserted (pieces : Tree .concat) (piece : Tree .piece)
    (assertion : Token) : ¬(snoc pieces (.asserted piece assertion)).DropsDollar :=
  fun ⟨_, _, same, _⟩ => nomatch same

/-- A bare atom is a dropped dollar if it is an anchor for that. -/
theorem dropsDollar_bare_iff {pieces : Tree .concat} {atom : Tree .atom} :
    (snoc pieces (.bare atom)).DropsDollar ↔
      ∃ dollar, atom = .anchor dollar .besideBreak ∧ dollar.kind = .dollar := by
  constructor
  · rintro ⟨_, dollar, ⟨⟩, kind⟩
    exact ⟨dollar, rfl, kind⟩
  · rintro ⟨dollar, rfl, kind⟩
    exact ⟨pieces, dollar, rfl, kind⟩

end Tree

/-- Behind a dropped dollar there is a line break. -/
def BeforeBreak : Fitting := fun pieces piece =>
  pieces.DropsDollar → piece.startsWithBreak = true

/-- Behind a dropped dollar the piece consumes its atom. -/
def Implied : Fitting := fun pieces piece =>
  pieces.DropsDollar → piece.Consumes

/-! ### Tokens -/

namespace Token

/-- The tokens end with a dollar, a line break directly behind it, and repetitions of that. -/
def EndsBroken (tokens : List Token) : Prop :=
  ∃ before dollar lineBreak repetitions,
    tokens = before ++ dollar :: lineBreak :: repetitions ∧ dollar.kind = .dollar ∧
      lineBreak.isLineBreak = true ∧ ∀ repetition ∈ repetitions, repetition.isRepetition = true

/-- Among the tokens a dollar stands directly before a line break, and among the repetitions
that follow on the break there is one that can do without it. -/
def Released (tokens : List Token) : Prop :=
  ∃ before token others, tokens = before ++ token :: others ∧ EndsBroken before ∧
    token.releases = true

/-- What releases is a repetition. -/
theorem isRepetition_of_releases {token : Token} (releases : token.releases = true) :
    token.isRepetition = true := by
  unfold Token.releases at releases
  split at releases
  · next same => rw [isRepetition, kind, same]; rfl
  · next same => rw [isRepetition, kind, same]; rfl
  · cases releases

/-- Behind a repetition the tokens end as before it, and elsewhere with the break itself. -/
theorem endsBroken_concat (front : List Token) (last : Token) :
    EndsBroken (front ++ [last]) ↔
      last.isRepetition = true ∧ EndsBroken front ∨
        last.isLineBreak = true ∧ ∃ before dollar, front = before ++ [dollar] ∧
          dollar.kind = .dollar := by
  constructor
  · rintro ⟨before, dollar, lineBreak, repetitions, split, kind, spelled, all⟩
    rcases List.eq_nil_or_concat' repetitions with rfl | ⟨repetitions, final, rfl⟩
    · have joined : front ++ [last] = (before ++ [dollar]) ++ [lineBreak] := by
        simpa using split
      obtain ⟨rfl, same⟩ := List.append_inj' joined rfl
      cases same
      exact .inr ⟨spelled, before, dollar, rfl, kind⟩
    · have joined :
          front ++ [last] = (before ++ dollar :: lineBreak :: repetitions) ++ [final] := by
        simpa using split
      obtain ⟨rfl, same⟩ := List.append_inj' joined rfl
      cases same
      obtain ⟨early, final⟩ := List.forall_mem_append.1 all
      exact .inl ⟨final last (.head _), before, dollar, lineBreak, repetitions, rfl, kind,
        spelled, early⟩
  · rintro (⟨repeats, before, dollar, lineBreak, repetitions, rfl, kind, spelled, all⟩ |
      ⟨spelled, before, dollar, rfl, kind⟩)
    · refine ⟨before, dollar, lineBreak, repetitions ++ [last], by simp, kind, spelled, ?_⟩
      exact List.forall_mem_append.2 ⟨all, List.forall_mem_singleton.2 repeats⟩
    · exact ⟨before, dollar, last, [], by simp, kind, spelled, by simp⟩

/-- With one more token a line break is released if one was before, or if that token does it. -/
theorem released_concat (front : List Token) (last : Token) :
    Released (front ++ [last]) ↔
      Released front ∨ EndsBroken front ∧ last.releases = true := by
  constructor
  · rintro ⟨before, token, others, split, broken, releases⟩
    rcases List.eq_nil_or_concat' others with rfl | ⟨others, final, rfl⟩
    · obtain ⟨rfl, same⟩ := List.append_inj' split rfl
      cases same
      exact .inr ⟨broken, releases⟩
    · have joined : front ++ [last] = (before ++ token :: others) ++ [final] := by
        simpa using split
      obtain ⟨rfl, _⟩ := List.append_inj' joined rfl
      exact .inl ⟨before, token, others, rfl, broken, releases⟩
  · rintro (⟨before, token, others, rfl, here⟩ | ⟨broken, releases⟩)
    · exact ⟨before, token, others ++ [last], by simp, here⟩
    · exact ⟨front, last, [], rfl, broken, releases⟩

end Token

/-! ### Growing -/

/-- The pieces that grow in an open construct. -/
def Scope.pieces : Scope → Tree .concat
  | .group _ draft => draft.pieces
  | .optional _ pieces => pieces

namespace Growth

/-- The pieces that will go on growing when what is innermost is closed, the inner ones
first. -/
def outerPieces (growth : Growth) : List (Tree .concat) :=
  match growth.scopes with
  | [] => []
  | _ :: outer => outer.map Scope.pieces ++ [growth.base.pieces]

@[simp] theorem outerPieces_withPieces (growth : Growth) (pieces : Tree .concat) :
    (growth.withPieces pieces).outerPieces = growth.outerPieces := by
  rcases growth with ⟨base, _ | ⟨_ | _, outer⟩, collection, ends⟩ <;> rfl

@[simp] theorem outerPieces_withDraft (growth : Growth) (draft : Draft) :
    (growth.withDraft draft).outerPieces = growth.outerPieces := by
  rcases growth with ⟨base, _ | ⟨_ | _, outer⟩, collection, ends⟩ <;> rfl

/-- What is opened is put before everything else. -/
theorem outerPieces_open (growth : Growth) (scope : Scope) :
    ({ growth with scopes := scope :: growth.scopes } : Growth).outerPieces =
      growth.pieces :: growth.outerPieces := by
  rcases growth with ⟨base, _ | ⟨_ | _, outer⟩, collection, ends⟩ <;> rfl

/-- What is closed makes way for what was before it. -/
theorem outerPieces_close {growth : Growth} {scope : Scope} {outer : List Scope}
    (scopes : growth.scopes = scope :: outer) :
    growth.outerPieces =
      ({ growth with scopes := outer } : Growth).pieces ::
        ({ growth with scopes := outer } : Growth).outerPieces := by
  have opened := outerPieces_open ({ growth with scopes := outer } : Growth) scope
  rwa [← scopes] at opened

/-- Each dropped dollar has a line break behind it, or is going to get one at once. -/
structure Guarded (growth : Growth) (following : Option Token) : Prop where
  everywhere : growth.Everywhere BeforeBreak
  inner : growth.pieces.DropsDollar →
    growth.collection = none ∧ ∃ token, following = some token ∧ token.isLineBreak = true
  outer : ∀ pieces ∈ growth.outerPieces, ¬pieces.DropsDollar

namespace Guarded

variable {growth : Growth} {token : Token} {following : Option Token}

theorem new (following : Option Token) : ({} : Growth).Guarded following :=
  ⟨.new, fun drops => absurd drops Tree.not_dropsDollar_empty, nofun⟩

/-- Only a literal comes behind a dropped dollar. -/
theorem not_dropsDollar (guarded : growth.Guarded (some token)) (breaks : token.LiteralBreak)
    (kind : token.kind ≠ .literal) : ¬growth.pieces.DropsDollar := by
  intro drops
  obtain ⟨_, _, ⟨⟩, spelled⟩ := guarded.inner drops
  exact kind (breaks spelled)

/-- Adding an atom: it has to begin with a line break behind a dropped dollar, and if it is a
dropped dollar, a line break has to follow. -/
theorem add (everywhere : growth.Everywhere BeforeBreak) (free : growth.collection = none)
    {atom : Tree .atom} (atomAll : atom.Everywhere BeforeBreak)
    (fitting : growth.pieces.DropsDollar → (Tree.bare atom).startsWithBreak = true)
    (outer : ∀ pieces ∈ growth.outerPieces, ¬pieces.DropsDollar)
    (drops : ∀ dollar, atom = .anchor dollar .besideBreak → dollar.kind = .dollar →
      ∃ token, following = some token ∧ token.isLineBreak = true) :
    (growth.add atom).Guarded following where
  everywhere := everywhere.add atomAll fitting
  inner := by
    rw [pieces_add, Tree.dropsDollar_bare_iff, collection_add]
    rintro ⟨dollar, same, kind⟩
    exact ⟨free, drops dollar same kind⟩
  outer := by
    rw [Growth.add, outerPieces_withPieces]
    exact outer

/-- Where the pieces that grow are none, and those outside are not in question. -/
theorem of_empty (everywhere : growth.Everywhere BeforeBreak) (none : growth.pieces = .empty)
    (outer : ∀ pieces ∈ growth.outerPieces, ¬pieces.DropsDollar) :
    growth.Guarded following where
  everywhere := everywhere
  inner := by
    rw [none]
    exact fun drops => absurd drops Tree.not_dropsDollar_empty
  outer := outer

/-- A separator begins without pieces. -/
theorem withDraft (guarded : growth.Guarded (some token)) {draft renewed : Draft}
    (drafting : growth.draft? = some draft) (renewedAll : renewed.Everywhere BeforeBreak)
    (none : renewed.pieces = .empty) : (growth.withDraft renewed).Guarded following := by
  apply of_empty (guarded.everywhere.withDraft renewedAll)
  · rw [pieces_eq_of_draft? (draft?_withDraft drafting renewed), none]
  · rw [outerPieces_withDraft]
    exact guarded.outer

/-- Opening a construct begins without pieces, and leaves no dropped dollar outside. -/
theorem «open» (guarded : growth.Guarded (some token)) (breaks : token.LiteralBreak)
    (kind : token.kind ≠ .literal) {scope : Scope} (scopeAll : scope.Everywhere BeforeBreak)
    (none : scope.pieces = .empty) :
    ({ growth with scopes := scope :: growth.scopes } : Growth).Guarded following := by
  have scopes := List.forall_mem_cons.2 ⟨scopeAll, guarded.everywhere.scopes⟩
  refine of_empty (guarded.everywhere.withScopes scopes) ?_ ?_
  · cases scope <;> exact none
  · rw [outerPieces_open]
    exact List.forall_mem_cons.2 ⟨guarded.not_dropsDollar breaks kind, guarded.outer⟩

/-- Closing a construct adds it outside. -/
theorem close (guarded : growth.Guarded (some token)) (free : growth.collection = none)
    {scope : Scope} {outer : List Scope} (scopes : growth.scopes = scope :: outer)
    {atom : Tree .atom} (inside : scope.Everywhere BeforeBreak → atom.Everywhere BeforeBreak)
    (solid : ∀ dollar, atom ≠ .anchor dollar .besideBreak) :
    (({ growth with scopes := outer } : Growth).add atom).Guarded following := by
  have outside := guarded.outer
  rw [outerPieces_close scopes] at outside
  obtain ⟨here, others⟩ := List.forall_mem_cons.1 outside
  obtain ⟨inner, around⟩ := guarded.everywhere.scopes_cons scopes
  exact add around free (inside inner) (fun drops => absurd drops here) others
    fun dollar same => absurd same (solid dollar)

/-- Putting a repetition behind the last piece changes neither its start nor what is before
it. -/
theorem withPieces (guarded : growth.Guarded (some token)) {pieces : Tree .concat}
    {old new : Tree .piece} (last : growth.pieces = .snoc pieces old)
    (same : new.Everywhere BeforeBreak ↔ old.Everywhere BeforeBreak)
    (starts : new.startsWithBreak = old.startsWithBreak)
    (solid : ¬(Tree.snoc pieces new).DropsDollar) :
    (growth.withPieces (.snoc pieces new)).Guarded following where
  everywhere := by
    have weaker : BeforeBreak pieces new → BeforeBreak pieces old :=
      fun fits drops => starts ▸ fits drops
    rw [everywhere_withPieces_iff last same weaker]
    have old := guarded.everywhere.pieces
    rw [last] at old
    exact ⟨guarded.everywhere, fun drops => starts ▸ old.2.2 drops⟩
  inner := by
    rw [pieces_withPieces]
    exact fun drops => absurd drops solid
  outer := by
    rw [outerPieces_withPieces]
    exact guarded.outer

/-- A step keeps dropped dollars before line breaks. -/
theorem step {after : Growth} (guarded : growth.Guarded (some token))
    (breaks : token.LiteralBreak) (taken : Step growth token following after) :
    after.Guarded following := by
  have early {kind : Kind} (same : token.kind = kind) (other : kind ≠ .literal) :
      ¬growth.pieces.DropsDollar := guarded.not_dropsDollar breaks (same ▸ other)
  cases taken with
  | member inside kind =>
      refine ⟨guarded.everywhere.of_same rfl rfl, fun drops => ?_, guarded.outer⟩
      cases inside.symm.trans (guarded.inner drops).1
  | @collectionClose opener members inside kind =>
      have none := early kind (by decide)
      have free : ({ growth with collection := Option.none } : Growth).Everywhere BeforeBreak :=
        guarded.everywhere.of_same rfl rfl
      have atomAll : (Tree.collection opener members token).Everywhere BeforeBreak := trivial
      exact add free rfl atomAll (fun drops => absurd drops none) guarded.outer
        fun _ same => nomatch same
  | literal outside kind =>
      refine add guarded.everywhere outside trivial ?_ guarded.outer fun _ same => nomatch same
      intro drops
      obtain ⟨_, _, ⟨⟩, spelled⟩ := guarded.inner drops
      exact spelled
  | caret outside kind =>
      have none := early kind (by decide)
      refine add guarded.everywhere outside trivial (fun drops => absurd drops none)
        guarded.outer ?_
      intro dollar same other
      injection same with same
      rw [← same, kind] at other
      cases other
  | dollar outside kind =>
      have none := early kind (by decide)
      have added : (growth.add (.anchor token (dollarPlace following))).Guarded following := by
        refine add guarded.everywhere outside trivial (fun drops => absurd drops none)
          guarded.outer ?_
        intro dollar same _
        injection same with _ place
        exact isLineBreak_of_dollarPlace place
      exact ⟨added.everywhere.of_same rfl rfl, added.inner, added.outer⟩
  | @quantifier pieces atom outside kind last =>
      exact guarded.withPieces last Iff.rfl (Tree.startsWithBreak_quantified atom token)
        (Tree.not_dropsDollar_quantified _ _ _)
  | @assertion pieces piece outside kind last =>
      exact guarded.withPieces last Iff.rfl (Tree.startsWithBreak_asserted piece token)
        (Tree.not_dropsDollar_asserted _ _ _)
  | conjunction outside kind drafting =>
      exact guarded.withDraft drafting ((guarded.everywhere.draft drafting).conjoin token) rfl
  | alternative outside kind drafting =>
      exact guarded.withDraft drafting ((guarded.everywhere.draft drafting).alternate token) rfl
  | groupOpen outside kind =>
      exact guarded.open breaks (by simp [kind]) Draft.everywhere_new rfl
  | @groupClose opener draft outer outside kind scopes =>
      exact guarded.close outside scopes id fun _ same => nomatch same
  | collectionOpen outside kind =>
      have none := early kind (by decide)
      exact ⟨guarded.everywhere.of_same rfl rfl, fun drops => absurd drops none, guarded.outer⟩
  | optionalOpen outside kind =>
      exact guarded.open breaks (by simp [kind]) trivial rfl
  | @optionalClose opener pieces outer outside kind scopes nonempty =>
      exact guarded.close outside scopes id fun _ same => nomatch same

/-- Taking tokens keeps dropped dollars before line breaks. -/
theorem takes {behind : Option Token} {after : Growth} {tokens : List Token}
    (guarded : growth.Guarded (tokens.head?.or behind))
    (breaks : ∀ token ∈ tokens, token.LiteralBreak)
    (taken : Takes behind growth tokens after) : after.Guarded behind := by
  induction taken with
  | done => exact guarded
  | step first _ inductionHypothesis =>
      obtain ⟨here, others⟩ := List.forall_mem_cons.1 breaks
      exact inductionHypothesis (guarded.step here first) others

end Guarded

/-- The last piece stands behind a dropped dollar. -/
def EndsBehindDollar (growth : Growth) : Prop :=
  ∃ pieces piece, growth.pieces = .snoc pieces piece ∧ pieces.DropsDollar

variable {growth after : Growth} {token : Token} {following : Option Token}

theorem endsBehindDollar_iff_of_snoc {pieces : Tree .concat} {piece : Tree .piece}
    (last : growth.pieces = .snoc pieces piece) :
    growth.EndsBehindDollar ↔ pieces.DropsDollar := by
  constructor
  · rintro ⟨_, _, same, drops⟩
    cases last.symm.trans same
    exact drops
  · exact fun drops => ⟨pieces, piece, last, drops⟩

theorem not_endsBehindDollar_of_empty (none : growth.pieces = .empty) :
    ¬growth.EndsBehindDollar :=
  fun ⟨_, _, same, _⟩ => nomatch none.symm.trans same

/-- A repetition is put behind the last piece, which must not be released behind a dropped
dollar. -/
theorem Step.implied_iff_of_repetition (taken : Step growth token following after)
    (repeats : token.isRepetition = true) :
    after.Everywhere Implied ↔
      growth.Everywhere Implied ∧ ¬(growth.EndsBehindDollar ∧ token.releases = true) := by
  cases taken with
  | @quantifier pieces atom outside kind last =>
      have same : Tree.Everywhere Implied (.quantified atom token) ↔
          Tree.Everywhere Implied (.bare atom) := Iff.rfl
      have weaker : Implied pieces (.quantified atom token) → Implied pieces (.bare atom) :=
        fun _ _ => Tree.consumes_bare atom
      rw [everywhere_withPieces_iff last same weaker, endsBehindDollar_iff_of_snoc last,
        Implied, Tree.consumes_quantified_iff, not_and, Bool.not_eq_true]
  | @assertion pieces piece outside kind last =>
      have same : Tree.Everywhere Implied (.asserted piece token) ↔
          Tree.Everywhere Implied piece := Iff.rfl
      have weaker : Implied pieces (.asserted piece token) → Implied pieces piece :=
        fun fits drops => ((Tree.consumes_asserted_iff kind).1 (fits drops)).1
      rw [everywhere_withPieces_iff last same weaker, endsBehindDollar_iff_of_snoc last,
        Implied, Tree.consumes_asserted_iff kind, not_and, Bool.not_eq_true]
      refine and_congr_right fun all => forall_congr' fun drops => and_iff_right ?_
      have old := all.pieces
      rw [last] at old
      exact old.2.2 drops
  | _ => simp_all [Token.isRepetition, Kind.isRepetition]

/-- A step drops a dollar exactly if its token is one that is beside a line break. -/
theorem Step.dropsDollar_iff (taken : Step growth token following after)
    (outside : after.collection = none) :
    after.pieces.DropsDollar ↔ token.kind = .dollar ∧ dollarPlace following = .besideBreak := by
  cases taken with
  | member inside kind | collectionOpen free kind => cases outside
  | collectionClose inside kind =>
      rw [pieces_add, Tree.dropsDollar_bare_iff, kind]
      simp
  | literal free kind =>
      rw [pieces_add, Tree.dropsDollar_bare_iff, kind]
      simp
  | caret free kind =>
      rw [pieces_add, Tree.dropsDollar_bare_iff]
      simp [kind]
  | dollar free kind =>
      have added : (growth.addDollar token following).pieces =
        .snoc growth.pieces (.bare (.anchor token (dollarPlace following))) := pieces_add _ _
      rw [added, Tree.dropsDollar_bare_iff]
      simp [kind]
  | quantifier free kind last =>
      rw [pieces_withPieces, kind]
      simp [Tree.not_dropsDollar_quantified]
  | assertion free kind last =>
      rw [pieces_withPieces, kind]
      simp [Tree.not_dropsDollar_asserted]
  | conjunction free kind drafting | alternative free kind drafting =>
      rw [pieces_eq_of_draft? (draft?_withDraft drafting _), kind]
      exact iff_of_false Tree.not_dropsDollar_empty (by simp)
  | groupOpen free kind | optionalOpen free kind =>
      rw [kind]
      exact iff_of_false Tree.not_dropsDollar_empty (by simp)
  | groupClose free kind scopes | optionalClose free kind scopes nonempty =>
      rw [pieces_add, Tree.dropsDollar_bare_iff, kind]
      simp

/-- A dollar is beside the line break that follows it. -/
theorem dollarPlace_eq_besideBreak_iff {next : Token} (breaks : next.LiteralBreak) :
    dollarPlace (some next) = .besideBreak ↔ next.isLineBreak = true := by
  constructor
  · intro place
    obtain ⟨_, ⟨⟩, spelled⟩ := isLineBreak_of_dollarPlace place
    exact spelled
  · intro spelled
    have goesOn : endsOperand (some next) = false := by
      rw [endsOperand, breaks spelled]
      rfl
    rw [dollarPlace, goesOn]
    simp [spelled]

/-- Outside collections a dollar has just been dropped exactly if the last token is one and a
line break follows. -/
theorem Takes.dropsDollar_iff {next : Token} {tokens : List Token}
    (takes : Takes (some next) {} tokens growth) (outside : growth.collection = none)
    (breaks : next.LiteralBreak) :
    growth.pieces.DropsDollar ↔
      next.isLineBreak = true ∧ ∃ before dollar, tokens = before ++ [dollar] ∧
        dollar.kind = .dollar := by
  rcases List.eq_nil_or_concat' tokens with rfl | ⟨front, last, rfl⟩
  · cases takes
    refine iff_of_false Tree.not_dropsDollar_empty ?_
    rintro ⟨_, before, dollar, split, _⟩
    simp at split
  · obtain ⟨middle, early, taken⟩ := takes.exists_last
    rw [taken.dropsDollar_iff outside, dollarPlace_eq_besideBreak_iff breaks, and_comm]
    refine and_congr_right fun _ => ⟨fun kind => ⟨front, last, rfl, kind⟩, ?_⟩
    rintro ⟨before, dollar, split, kind⟩
    obtain ⟨_, same⟩ := List.append_inj' split rfl
    cases same
    exact kind

/-- Outside collections the last piece stands behind a dropped dollar exactly if the last tokens
are a dollar, a line break, and repetitions. -/
theorem Takes.endsBehindDollar_iff {behind : Option Token} {tokens : List Token}
    (takes : Takes behind {} tokens growth) (outside : growth.collection = none)
    (breaks : ∀ token ∈ tokens, token.LiteralBreak) :
    growth.EndsBehindDollar ↔ Token.EndsBroken tokens := by
  induction tokens using List.reverseRecOn generalizing behind growth with
  | nil =>
      cases takes
      refine iff_of_false (not_endsBehindDollar_of_empty rfl) ?_
      rintro ⟨before, dollar, lineBreak, repetitions, split, _⟩
      simp at split
  | append_singleton front last inductionHypothesis =>
      obtain ⟨middle, early, taken⟩ := takes.exists_last
      obtain ⟨breaksFront, breaksLast⟩ := List.forall_mem_append.1 breaks
      have lastBreak := breaksLast last (.head _)
      have guarded : middle.Guarded (some last) := (Guarded.new _).takes breaksFront early
      rw [Token.endsBroken_concat]
      -- Only a repetition or a line break goes on with what the tokens before it end with.
      have ends {kind : Kind} (same : last.kind = kind) (other : kind ≠ .literal)
          (single : kind.isRepetition = false) :
          ¬(last.isRepetition = true ∧ Token.EndsBroken front ∨
            last.isLineBreak = true ∧ ∃ before dollar, front = before ++ [dollar] ∧
              dollar.kind = .dollar) := by
        rw [lastBreak.isLineBreak_eq_false (same ▸ other), Token.isRepetition, same, single]
        simp
      cases taken with
      | member inside kind | collectionOpen free kind => cases outside
      | literal free kind | caret free kind =>
          rw [endsBehindDollar_iff_of_snoc (pieces_add _ _),
            early.dropsDollar_iff free lastBreak, Token.isRepetition, kind]
          simp [Kind.isRepetition]
      | dollar free kind =>
          have added : (middle.addDollar last behind).pieces =
            .snoc middle.pieces (.bare (.anchor last (dollarPlace behind))) := pieces_add _ _
          rw [endsBehindDollar_iff_of_snoc added, early.dropsDollar_iff free lastBreak,
            Token.isRepetition, kind]
          simp [Kind.isRepetition]
      | quantifier free kind ends | assertion free kind ends =>
          rw [endsBehindDollar_iff_of_snoc (pieces_withPieces _ _),
            ← endsBehindDollar_iff_of_snoc ends, inductionHypothesis early free breaksFront,
            lastBreak.isLineBreak_eq_false (by simp [kind]), Token.isRepetition, kind]
          simp [Kind.isRepetition]
      | conjunction free kind drafting | alternative free kind drafting =>
          refine iff_of_false (not_endsBehindDollar_of_empty ?_) (ends kind (by decide) rfl)
          rw [pieces_eq_of_draft? (draft?_withDraft drafting _)]
          rfl
      | groupOpen free kind | optionalOpen free kind =>
          exact iff_of_false (not_endsBehindDollar_of_empty rfl) (ends kind (by decide) rfl)
      | collectionClose inside kind =>
          rw [endsBehindDollar_iff_of_snoc (pieces_add _ _)]
          refine iff_of_false ?_ (ends kind (by decide) rfl)
          exact guarded.not_dropsDollar lastBreak (by simp [kind])
      | groupClose free kind scopes | optionalClose free kind scopes nonempty =>
          rw [endsBehindDollar_iff_of_snoc (pieces_add _ _)]
          have outer := guarded.outer
          rw [outerPieces_close scopes] at outer
          exact iff_of_false (outer _ (.head _)) (ends kind (by decide) rfl)

/-- All pieces of a growth behind dropped dollars consume their atoms unless the tokens release
one of them. -/
theorem Takes.everywhere_implied_iff {behind : Option Token} {tokens : List Token}
    (takes : Takes behind {} tokens growth) (breaks : ∀ token ∈ tokens, token.LiteralBreak) :
    growth.Everywhere Implied ↔ ¬Token.Released tokens := by
  induction tokens using List.reverseRecOn generalizing behind growth with
  | nil =>
      cases takes
      refine iff_of_true .new ?_
      rintro ⟨before, token, others, split, _⟩
      simp at split
  | append_singleton front last inductionHypothesis =>
      obtain ⟨middle, early, taken⟩ := takes.exists_last
      obtain ⟨breaksFront, _⟩ := List.forall_mem_append.1 breaks
      have before := inductionHypothesis early breaksFront
      rw [Token.released_concat, not_or, ← before]
      cases repeats : last.isRepetition with
      | false =>
          have holds : last.releases = false := by
            rw [Bool.eq_false_iff]
            intro releases
            exact Bool.false_ne_true (repeats.symm.trans (Token.isRepetition_of_releases releases))
          have bare : ∀ pieces atom, Implied pieces (.bare atom) :=
            fun _ atom _ => Tree.consumes_bare atom
          rw [taken.everywhere_iff bare (fun kind => ?_) fun kind => ?_, holds]
          · simp
          all_goals
            rw [Token.isRepetition, kind] at repeats
            cases repeats
      | true =>
          have free : middle.collection = none := by
            cases taken with
            | quantifier free | assertion free => exact free
            | _ => simp_all [Token.isRepetition, Kind.isRepetition]
          rw [taken.implied_iff_of_repetition repeats,
            early.endsBehindDollar_iff free breaksFront]

end Growth

/-- Take a pattern that converts.  In its tree a line break comes behind each dropped dollar, and
the pieces of these line breaks consume their atoms, unless one of the repetitions that follow
on such a break can do without it. -/
theorem implied_iff {options : Options} {pattern : String} {conversion : Conversion}
    (converted : convert options pattern = .ok conversion) :
    ∃ grown, Tree.ofScan (Scan.ofPattern options.magicness pattern) = .ok grown ∧
      (pattern.isEmpty = false →
        conversion = .ofGrown options (foldsCase options pattern) grown) ∧
        grown.tree.Everywhere BeforeBreak ∧
          (grown.tree.Everywhere Implied ↔
            ¬Token.Released (Scan.ofPattern options.magicness pattern).tokens) := by
  obtain ⟨grown, complete, _, same⟩ := exists_grown_of_convert converted
  obtain ⟨_, after, _, takes, finished, _⟩ := Growth.takes_of_run_eq_ok complete
  have literal := (Scan.reads_ofPattern options.magicness pattern).literalBreak
  have guarded := (Growth.Guarded.new _).takes literal takes
  refine ⟨grown, complete, same, guarded.everywhere.finish finished, ?_⟩
  rw [← takes.everywhere_implied_iff literal, Growth.everywhere_finish_iff finished]

/-- A line break that has to come at least once stands for the dollar before it. -/
theorem implied_plus :
    convert {} "a$\\n\\+" =
        .ok
          { converted := "a\\n+"
            ignoreCase := false
            magicness := .magic
            metadata := {} } ∧
      ∃ grown, Tree.ofScan (Scan.ofPattern .magic "a$\\n\\+") = .ok grown ∧
        grown.tree.Everywhere Implied := by
  have converted :
      convert {} "a$\\n\\+" =
        .ok
          { converted := "a\\n+"
            ignoreCase := false
            magicness := .magic
            metadata := {} } := by
    rfl
  obtain ⟨grown, complete, _, _, implied⟩ := implied_iff converted
  refine ⟨converted, grown, complete, implied.2 ?_⟩
  have holds : (Scan.ofPattern .magic "a$\\n\\+").tokens.all fun token => !token.releases := by
    decide +kernel
  rintro ⟨before, token, others, split, _, releases⟩
  have among : token ∈ (Scan.ofPattern .magic "a$\\n\\+").tokens := by
    rw [show (Scan.ofPattern .magic "a$\\n\\+").tokens = _ from split]
    simp
  simpa [releases] using List.all_eq_true.1 holds token among

/-- With a star the line break need not be there, so that nothing is left of the dollar; and
where the break must not follow, the dollar is gone all the same. -/
theorem implied_fails :
    convert {} "a$\\n*" =
        .ok
          { converted := "a\\n*"
            ignoreCase := false
            magicness := .magic
            metadata := {} } ∧
      convert {} "a$\\n\\@!" =
          .ok
            { converted := "a(?!\\n)"
              ignoreCase := false
              magicness := .magic
              metadata := {} } ∧
        ∃ grown, Tree.ofScan (Scan.ofPattern .magic "a$\\n*") = .ok grown ∧
          ¬grown.tree.Everywhere Implied := by
  refine ⟨rfl, rfl, _, rfl, ?_⟩
  rintro ⟨_, _, consumes⟩
  exact Bool.false_ne_true (Tree.consumes_quantified_iff.1 (consumes ⟨_, _, rfl, rfl⟩)).symm

end VimPattern
