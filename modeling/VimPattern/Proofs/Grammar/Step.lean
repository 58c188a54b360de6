/-
Module: VimPattern.Proofs.Grammar.Step
Purpose: Everything that one step of a growth can do.
Main exports:
  Growth.draft?, Growth.withDraft, Growth.Step, Growth.Step.of_eq_ok,
  Growth.Takes, Growth.Takes.append, Growth.Takes.exists_split, Growth.Takes.tokens_eq,
  Growth.Takes.run, Growth.takes_of_run_eq_ok
-/
import VimPattern.Tree.Yield

namespace VimPattern.Growth

/-!
Inside a collection a step takes a member or the end of the collection, and outside
there is one way to take each kind of token.  `Step` lists these ways with their
guards, so that a fact about steps is one case analysis on it and the functions
behind `Growth.step` need not be opened again.
-/

/-! ### The current operand and the draft around it -/

/-- The draft that a separator acts on.  An optional sequence has none. -/
def draft? (growth : Growth) : Option Draft :=
  match growth.scopes with
  | [] => some growth.base
  | .group _ draft :: _ => some draft
  | .optional _ _ :: _ => none

/-- Replace the draft that a separator acts on. -/
def withDraft (growth : Growth) (draft : Draft) : Growth :=
  match growth.scopes with
  | [] => { growth with base := draft }
  | .group opener _ :: outer =>
      { growth with scopes := .group opener draft :: outer }
  | .optional _ _ :: _ => growth

@[simp] theorem pieces_withPieces (growth : Growth) (pieces : Tree .concat) :
    (growth.withPieces pieces).pieces = pieces := by
  rcases growth with ⟨base, scopes, collection, dollarEnds⟩
  rcases scopes with _ | ⟨_ | _, outer⟩ <;> rfl

@[simp] theorem withPieces_pieces (growth : Growth) :
    growth.withPieces growth.pieces = growth := by
  rcases growth with ⟨base, scopes, collection, dollarEnds⟩
  rcases scopes with _ | ⟨_ | _, outer⟩ <;> rfl

@[simp] theorem withPieces_withPieces (growth : Growth)
    (first second : Tree .concat) :
    (growth.withPieces first).withPieces second = growth.withPieces second := by
  rcases growth with ⟨base, scopes, collection, dollarEnds⟩
  rcases scopes with _ | ⟨_ | _, outer⟩ <;> rfl

@[simp] theorem collection_withPieces (growth : Growth) (pieces : Tree .concat) :
    (growth.withPieces pieces).collection = growth.collection := by
  rcases growth with ⟨base, scopes, collection, dollarEnds⟩
  rcases scopes with _ | ⟨_ | _, outer⟩ <;> rfl

@[simp] theorem collection_withDraft (growth : Growth) (draft : Draft) :
    (growth.withDraft draft).collection = growth.collection := by
  rcases growth with ⟨base, scopes, collection, dollarEnds⟩
  rcases scopes with _ | ⟨_ | _, outer⟩ <;> rfl

@[simp] theorem withDraft_withDraft (growth : Growth) (first second : Draft) :
    (growth.withDraft first).withDraft second = growth.withDraft second := by
  rcases growth with ⟨base, scopes, collection, dollarEnds⟩
  rcases scopes with _ | ⟨_ | _, outer⟩ <;> rfl

theorem draft?_withDraft {growth : Growth} {draft : Draft}
    (drafting : growth.draft? = some draft) (other : Draft) :
    (growth.withDraft other).draft? = some other := by
  rcases growth with ⟨base, scopes, collection, dollarEnds⟩
  rcases scopes with _ | ⟨_ | _, outer⟩
  · rfl
  · rfl
  · cases drafting

/-- The pieces of a draft are the current ones. -/
theorem pieces_eq_of_draft? {growth : Growth} {draft : Draft}
    (drafting : growth.draft? = some draft) : growth.pieces = draft.pieces := by
  rcases growth with ⟨base, scopes, collection, dollarEnds⟩
  rcases scopes with _ | ⟨_ | _, outer⟩ <;> cases drafting <;> rfl

/-- Where a draft is growing, replacing the pieces replaces those of the draft. -/
theorem withPieces_eq_withDraft {growth : Growth} {draft : Draft}
    (drafting : growth.draft? = some draft) (pieces : Tree .concat) :
    growth.withPieces pieces = growth.withDraft { draft with pieces := pieces } := by
  rcases growth with ⟨base, scopes, collection, dollarEnds⟩
  rcases scopes with _ | ⟨_ | _, outer⟩ <;> cases drafting <;> rfl

/-- The same growth with another note about its dollars.  The note has no
influence on the trees. -/
def noting (growth : Growth) (ends : Bool) : Growth :=
  { growth with dollarEnds := ends }

@[simp] theorem noting_dollarEnds (growth : Growth) :
    growth.noting growth.dollarEnds = growth := rfl

@[simp] theorem noting_noting (growth : Growth) (first second : Bool) :
    (growth.noting first).noting second = growth.noting second := rfl

@[simp] theorem pieces_noting (growth : Growth) (ends : Bool) :
    (growth.noting ends).pieces = growth.pieces := rfl

@[simp] theorem collection_noting (growth : Growth) (ends : Bool) :
    (growth.noting ends).collection = growth.collection := rfl

@[simp] theorem draft?_noting (growth : Growth) (ends : Bool) :
    (growth.noting ends).draft? = growth.draft? := rfl

@[simp] theorem dollarEnds_withPieces (growth : Growth) (pieces : Tree .concat) :
    (growth.withPieces pieces).dollarEnds = growth.dollarEnds := by
  rcases growth with ⟨base, scopes, collection, dollarEnds⟩
  rcases scopes with _ | ⟨_ | _, outer⟩ <;> rfl

@[simp] theorem dollarEnds_withDraft (growth : Growth) (draft : Draft) :
    (growth.withDraft draft).dollarEnds = growth.dollarEnds := by
  rcases growth with ⟨base, scopes, collection, dollarEnds⟩
  rcases scopes with _ | ⟨_ | _, outer⟩ <;> rfl

@[simp] theorem dollarEnds_add (growth : Growth) (atom : Tree .atom) :
    (growth.add atom).dollarEnds = growth.dollarEnds := by
  simp [add]

@[simp] theorem collection_add (growth : Growth) (atom : Tree .atom) :
    (growth.add atom).collection = growth.collection := by
  simp [add]

@[simp] theorem pieces_add (growth : Growth) (atom : Tree .atom) :
    (growth.add atom).pieces = .snoc growth.pieces (.bare atom) := by
  simp [add]

/-- A growth notes what it notes already. -/
theorem eq_noting {growth after : Growth}
    (same : after.dollarEnds = growth.dollarEnds) :
    after = after.noting growth.dollarEnds := by
  rw [← same, noting_dollarEnds]

@[simp] theorem withPieces_noting (growth : Growth) (ends : Bool)
    (pieces : Tree .concat) :
    (growth.noting ends).withPieces pieces = (growth.withPieces pieces).noting ends := by
  rcases growth with ⟨base, scopes, collection, dollarEnds⟩
  rcases scopes with _ | ⟨_ | _, outer⟩ <;> rfl

@[simp] theorem withDraft_noting (growth : Growth) (ends : Bool) (draft : Draft) :
    (growth.noting ends).withDraft draft = (growth.withDraft draft).noting ends := by
  rcases growth with ⟨base, scopes, collection, dollarEnds⟩
  rcases scopes with _ | ⟨_ | _, outer⟩ <;> rfl

/-! ### Steps -/

/-- The steps that can be taken, with what they lead to. -/
inductive Step (growth : Growth) (token : Token) (following : Option Token) :
    Growth → Prop where
  | member {opener : Token} {members : List Token}
      (inside : growth.collection = some (opener, members))
      (kind : token.kind = .literal) :
      Step growth token following
        { growth with collection := some (opener, members ++ [token]) }
  | collectionClose {opener : Token} {members : List Token}
      (inside : growth.collection = some (opener, members))
      (kind : token.kind = .collectionClose) :
      Step growth token following
        ({ growth with collection := none }.add (.collection opener members token))
  | literal (outside : growth.collection = none) (kind : token.kind = .literal) :
      Step growth token following (growth.add (.literal token))
  | caret (outside : growth.collection = none) (kind : token.kind = .caret) :
      Step growth token following (growth.add (.anchor token growth.caretPlace))
  | dollar (outside : growth.collection = none) (kind : token.kind = .dollar) :
      Step growth token following (growth.addDollar token following)
  | quantifier {pieces : Tree .concat} {atom : Tree .atom}
      (outside : growth.collection = none) (kind : token.kind = .quantifier)
      (last : growth.pieces = .snoc pieces (.bare atom)) :
      Step growth token following
        (growth.withPieces (.snoc pieces (.quantified atom token)))
  | assertion {pieces : Tree .concat} {piece : Tree .piece}
      (outside : growth.collection = none) (kind : token.kind = .assertion)
      (last : growth.pieces = .snoc pieces piece) :
      Step growth token following
        (growth.withPieces (.snoc pieces (.asserted piece token)))
  | conjunction {draft : Draft} (outside : growth.collection = none)
      (kind : token.kind = .conjunction) (drafting : growth.draft? = some draft) :
      Step growth token following (growth.withDraft (draft.conjoin token))
  | alternative {draft : Draft} (outside : growth.collection = none)
      (kind : token.kind = .alternative) (drafting : growth.draft? = some draft) :
      Step growth token following (growth.withDraft (draft.alternate token))
  | groupOpen (outside : growth.collection = none)
      (kind : token.kind = .groupOpen) :
      Step growth token following
        { growth with scopes := .group token {} :: growth.scopes }
  | groupClose {opener : Token} {draft : Draft} {outer : List Scope}
      (outside : growth.collection = none) (kind : token.kind = .groupClose)
      (scopes : growth.scopes = .group opener draft :: outer) :
      Step growth token following
        ({ growth with scopes := outer }.add (.group opener draft.pattern token))
  | collectionOpen (outside : growth.collection = none)
      (kind : token.kind = .collectionOpen) :
      Step growth token following { growth with collection := some (token, []) }
  | optionalOpen (outside : growth.collection = none)
      (kind : token.kind = .optionalOpen) :
      Step growth token following
        { growth with scopes := .optional token .empty :: growth.scopes }
  | optionalClose {opener : Token} {pieces : Tree .concat} {outer : List Scope}
      (outside : growth.collection = none) (kind : token.kind = .optionalClose)
      (scopes : growth.scopes = .optional opener pieces :: outer)
      (nonempty : pieces ≠ .empty) :
      Step growth token following
        ({ growth with scopes := outer }.add (.optional opener pieces token))

/-- A separator is taken exactly where a draft is growing. -/
theorem separate_eq_ok_iff {growth after : Growth} {token : Token}
    {renew : Draft → Draft} :
    growth.separate token renew = .ok after ↔
      ∃ draft, growth.draft? = some draft ∧ after = growth.withDraft (renew draft) := by
  rcases growth with ⟨base, scopes, collection, dollarEnds⟩
  rcases scopes with _ | ⟨_ | _, outer⟩ <;>
    simp [separate, draft?, withDraft, eq_comm]

/-- A piece takes a quantifier exactly when it is a bare atom. -/
theorem quantify_eq_ok_iff {growth after : Growth} {token : Token} :
    growth.quantify token = .ok after ↔
      ∃ pieces atom, growth.pieces = .snoc pieces (.bare atom) ∧
        after = growth.withPieces (.snoc pieces (.quantified atom token)) := by
  unfold quantify
  split
  · next last => simp [last]
  · next pieces atom last =>
      rw [last]
      constructor
      · rintro ⟨⟩
        exact ⟨pieces, atom, rfl, rfl⟩
      · rintro ⟨_, _, ⟨⟩, rfl⟩
        rfl
  · next pieces piece notBare last =>
      refine ⟨nofun, ?_⟩
      rintro ⟨front, atom, bare, _⟩
      rw [last] at bare
      cases bare
      exact absurd rfl (notBare atom)

/-- An assertion is taken exactly behind a piece. -/
theorem assert_eq_ok_iff {growth after : Growth} {token : Token} :
    growth.assert token = .ok after ↔
      ∃ pieces piece, growth.pieces = .snoc pieces piece ∧
        after = growth.withPieces (.snoc pieces (.asserted piece token)) := by
  unfold assert
  split
  · next last => simp [last]
  · next pieces piece last =>
      rw [last]
      constructor
      · rintro ⟨⟩
        exact ⟨pieces, piece, rfl, rfl⟩
      · rintro ⟨_, _, ⟨⟩, rfl⟩
        rfl

/-- A group is closed exactly where one is innermost. -/
theorem closeGroup_eq_ok_iff {growth after : Growth} {token : Token} :
    growth.closeGroup token = .ok after ↔
      ∃ opener draft outer, growth.scopes = .group opener draft :: outer ∧
        after =
          { growth with scopes := outer }.add (.group opener draft.pattern token) := by
  unfold closeGroup
  split
  · next opener draft outer scopes =>
      rw [scopes]
      constructor
      · rintro ⟨⟩
        exact ⟨opener, draft, outer, rfl, rfl⟩
      · rintro ⟨_, _, _, ⟨⟩, rfl⟩
        rfl
  · next scopes => simp [scopes]
  · next scopes => simp [scopes]

/-- An optional sequence is closed exactly where one with pieces is innermost. -/
theorem closeOptional_eq_ok_iff {growth after : Growth} {token : Token} :
    growth.closeOptional token = .ok after ↔
      ∃ opener pieces outer, growth.scopes = .optional opener pieces :: outer ∧
        pieces ≠ .empty ∧
          after =
            { growth with scopes := outer }.add (.optional opener pieces token) := by
  unfold closeOptional
  split
  · next opener outer scopes =>
      refine ⟨nofun, ?_⟩
      rintro ⟨_, _, _, same, nonempty, _⟩
      rw [scopes] at same
      cases same
      exact absurd rfl nonempty
  · next opener pieces outer nonempty scopes =>
      rw [scopes]
      constructor
      · rintro ⟨⟩
        exact ⟨opener, pieces, outer, rfl, nonempty, rfl⟩
      · rintro ⟨_, _, _, ⟨⟩, _, rfl⟩
        rfl
  · next scopes => simp [scopes]
  · next scopes => simp [scopes]

/-- A step that is taken is one of the listed ones. -/
theorem Step.of_eq_ok {growth after : Growth} {token : Token}
    {following : Option Token} (taken : growth.step token following = .ok after) :
    Step growth token following after := by
  unfold step at taken
  split at taken
  · next opener members inside =>
      unfold stepInCollection at taken
      split at taken
      · next kind =>
          cases taken
          exact .member inside kind
      · next kind =>
          cases taken
          exact .collectionClose inside kind
      · cases taken
  · next outside =>
      unfold stepOutside at taken
      split at taken
      · next kind =>
          cases taken
          exact .literal outside kind
      · next kind =>
          cases taken
          exact .caret outside kind
      · next kind =>
          cases taken
          exact .dollar outside kind
      · next kind =>
          obtain ⟨pieces, atom, last, rfl⟩ := quantify_eq_ok_iff.1 taken
          exact .quantifier outside kind last
      · next kind =>
          obtain ⟨pieces, piece, last, rfl⟩ := assert_eq_ok_iff.1 taken
          exact .assertion outside kind last
      · next kind =>
          obtain ⟨draft, drafting, rfl⟩ := separate_eq_ok_iff.1 taken
          exact .conjunction outside kind drafting
      · next kind =>
          obtain ⟨draft, drafting, rfl⟩ := separate_eq_ok_iff.1 taken
          exact .alternative outside kind drafting
      · next kind =>
          cases taken
          exact .groupOpen outside kind
      · next kind =>
          obtain ⟨opener, draft, outer, scopes, rfl⟩ := closeGroup_eq_ok_iff.1 taken
          exact .groupClose outside kind scopes
      · next kind =>
          cases taken
          exact .collectionOpen outside kind
      · cases taken
      · next kind =>
          cases taken
          exact .optionalOpen outside kind
      · next kind =>
          obtain ⟨opener, pieces, outer, scopes, nonempty, rfl⟩ :=
            closeOptional_eq_ok_iff.1 taken
          exact .optionalClose outside kind scopes nonempty

/-- The listed steps are taken. -/
theorem Step.eq_ok {growth after : Growth} {token : Token}
    {following : Option Token} (listed : Step growth token following after) :
    growth.step token following = .ok after := by
  cases listed with
  | member inside kind => simp [step, stepInCollection, inside, kind]
  | collectionClose inside kind => simp [step, stepInCollection, inside, kind]
  | literal outside kind => simp [step, stepOutside, outside, kind]
  | caret outside kind => simp [step, stepOutside, outside, kind]
  | dollar outside kind => simp [step, stepOutside, outside, kind]
  | quantifier outside kind last =>
      simp only [step, stepOutside, outside, kind]
      exact quantify_eq_ok_iff.2 ⟨_, _, last, rfl⟩
  | assertion outside kind last =>
      simp only [step, stepOutside, outside, kind]
      exact assert_eq_ok_iff.2 ⟨_, _, last, rfl⟩
  | conjunction outside kind drafting =>
      simp only [step, stepOutside, outside, kind]
      exact separate_eq_ok_iff.2 ⟨_, drafting, rfl⟩
  | alternative outside kind drafting =>
      simp only [step, stepOutside, outside, kind]
      exact separate_eq_ok_iff.2 ⟨_, drafting, rfl⟩
  | groupOpen outside kind => simp [step, stepOutside, outside, kind]
  | groupClose outside kind scopes =>
      simp only [step, stepOutside, outside, kind]
      exact closeGroup_eq_ok_iff.2 ⟨_, _, _, scopes, by rw [outside]⟩
  | collectionOpen outside kind => simp [step, stepOutside, outside, kind]
  | optionalOpen outside kind => simp [step, stepOutside, outside, kind]
  | optionalClose outside kind scopes nonempty =>
      simp only [step, stepOutside, outside, kind]
      exact closeOptional_eq_ok_iff.2 ⟨_, _, _, scopes, nonempty, by rw [outside]⟩

/-! ### Several steps -/

/-- A growth takes tokens one after the other.  `behind` is the token after the
last of them. -/
inductive Takes (behind : Option Token) : Growth → List Token → Growth → Prop where
  | done (growth : Growth) : Takes behind growth [] growth
  | step {growth middle after : Growth} {token : Token} {others : List Token}
      (first : Step growth token (others.head?.or behind) middle)
      (rest : Takes behind middle others after) :
      Takes behind growth (token :: others) after

namespace Takes

/-- One step takes one token. -/
theorem single {behind : Option Token} {growth after : Growth} {token : Token}
    (taken : Step growth token behind after) : Takes behind growth [token] after :=
  .step taken (.done after)

/-- Taking tokens and then more tokens. -/
theorem append {behind : Option Token} {growth middle after : Growth}
    {front back : List Token}
    (early : Takes (back.head?.or behind) growth front middle)
    (late : Takes behind middle back after) :
    Takes behind growth (front ++ back) after := by
  induction early with
  | done => exact late
  | @step growth next middle token others first rest inductionHypothesis =>
      have same : (others ++ back).head?.or behind =
          others.head?.or (back.head?.or behind) := by
        cases others <;> simp
      exact .step (same ▸ first) (inductionHypothesis late)

/-- Taking tokens, then one that stands between, and then more tokens. -/
theorem append_cons {behind : Option Token} {growth middle next after : Growth}
    {front back : List Token} {token : Token}
    (early : Takes (some token) growth front middle)
    (between : Step middle token (back.head?.or behind) next)
    (late : Takes behind next back after) :
    Takes behind growth (front ++ token :: back) after :=
  append early (.step between late)

/-- One of several tokens is taken between those before it and those behind it. -/
theorem exists_split {behind : Option Token} {growth after : Growth} {front back : List Token}
    {token : Token} (takes : Takes behind growth (front ++ token :: back) after) :
    ∃ middle next, Takes (some token) growth front middle ∧
      Step middle token (back.head?.or behind) next ∧ Takes behind next back after := by
  induction front generalizing growth with
  | nil =>
      cases takes with
      | @step _ next _ _ _ first rest => exact ⟨growth, next, .done growth, first, rest⟩
  | cons head front inductionHypothesis =>
      cases takes with
      | step first rest =>
          obtain ⟨middle, next, early, taken, late⟩ := inductionHypothesis rest
          have same : (front ++ token :: back).head?.or behind =
              front.head?.or (some token) := by
            cases front <;> rfl
          exact ⟨middle, next, .step (same ▸ first) early, taken, late⟩

/-- A growth has the tokens that it has taken. -/
theorem tokens_eq {behind : Option Token} {growth after : Growth} {tokens : List Token}
    (takes : Takes behind growth tokens after) : after.tokens = growth.tokens ++ tokens := by
  induction takes with
  | done => rw [List.append_nil]
  | step taken _ inductionHypothesis =>
      rw [inductionHypothesis, tokens_step taken.eq_ok, List.append_assoc, List.singleton_append]

/-- Running over tokens that can be taken is running on behind them. -/
theorem run {stop : Except ScanError Terminus} {growth after : Growth}
    {tokens others : List Token} (taken : Takes others.head? growth tokens after)
    (read : Nat) :
    growth.run stop read (tokens ++ others) =
      after.run stop (read + tokens.length) others := by
  induction taken generalizing read with
  | done => simp
  | @step growth middle after token rest first _ inductionHypothesis =>
      have next : (rest ++ others).head? = rest.head?.or others.head? := by
        cases rest <;> simp
      rw [List.cons_append, Growth.run, next, first.eq_ok]
      dsimp only
      rw [inductionHypothesis, List.length_cons, Nat.add_assoc, Nat.add_comm 1]

end Takes

/-- A run that ends well has taken all its tokens, and what it ends with is
finished. -/
theorem takes_of_run_eq_ok {stop : Except ScanError Terminus} {growth : Growth}
    {read : Nat} {tokens : List Token} {grown : Grown}
    (complete : growth.run stop read tokens = .ok grown) :
    ∃ terminus after, stop = .ok terminus ∧ Takes none growth tokens after ∧
      after.finish terminus.position = .ok grown.tree ∧
        grown.dollarEnds = after.dollarEnds ∧ grown.context = terminus.context := by
  induction tokens generalizing growth read with
  | nil =>
      simp only [Growth.run] at complete
      split at complete
      · cases complete
      · next terminus =>
          split at complete
          · next tree finished =>
              cases complete
              exact ⟨terminus, growth, rfl, .done growth, finished, rfl, rfl⟩
          · cases complete
  | cons token others inductionHypothesis =>
      simp only [Growth.run] at complete
      split at complete
      · next middle taken =>
          obtain ⟨terminus, after, stopEq, takes, finished⟩ :=
            inductionHypothesis complete
          refine ⟨terminus, after, stopEq, .step ?_ takes, finished⟩
          rw [Option.or_none]
          exact Step.of_eq_ok taken
      · split at complete <;> cases complete

end VimPattern.Growth
