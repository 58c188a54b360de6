/-
Module: VimPattern.Proofs.Grammar.Unclosed
Purpose: The openings that are not closed yet, as the tokens, the growth and the reading know them.
Main exports:
  Token.unclosed, Token.unclosed_subset, Growth.openers, Growth.Takes.openers_eq, Token.enclosure?,
  Context.Follows.isSome_collection?, Scan.Reaches.follows
-/
import VimPattern.Proofs.Grammar.Kinds
import VimPattern.Proofs.Scan.Enclosures

namespace VimPattern

/-!
Three parties keep account of what is open.  The tokens themselves do, if every closing is
taken to close the last opening; a growth does by its scopes and its collection; and the
reading does by its stack, which leaves out the groups.  As long as the growth takes all
tokens, the three accounts agree.  So what the reading admits is never at odds with what the
growth expects.
-/

/-! ### Tokens -/

/-- What is open behind a token, the innermost first, given what is open before it. -/
def Token.unclosedAfter (opened : List Token) (token : Token) : List Token :=
  match token.kind with
  | .groupOpen | .collectionOpen | .optionalOpen => token :: opened
  | .groupClose | .collectionClose | .optionalClose => opened.drop 1
  | _ => opened

/-- The openings of groups, collections and optional sequences that these tokens leave open,
the innermost first. -/
def Token.unclosed (tokens : List Token) : List Token :=
  tokens.foldl unclosedAfter []

/-- Nothing is open behind a token but itself and what was open before it. -/
theorem Token.unclosedAfter_subset (opened : List Token) (token : Token) :
    unclosedAfter opened token ⊆ token :: opened := by
  unfold unclosedAfter
  split
  · exact List.Subset.refl _
  · exact List.Subset.refl _
  · exact List.Subset.refl _
  · exact List.subset_cons_of_subset _ (List.drop_subset 1 opened)
  · exact List.subset_cons_of_subset _ (List.drop_subset 1 opened)
  · exact List.subset_cons_of_subset _ (List.drop_subset 1 opened)
  · exact List.subset_cons_self _ _

/-- What the tokens leave open are some of them. -/
theorem Token.unclosed_subset (tokens : List Token) : unclosed tokens ⊆ tokens := by
  have all (opened : List Token) : tokens.foldl unclosedAfter opened ⊆ tokens ++ opened := by
    induction tokens generalizing opened with
    | nil => exact List.Subset.refl _
    | cons token others inductionHypothesis =>
        intro opener member
        have later := inductionHypothesis (unclosedAfter opened token) member
        rcases List.mem_append.1 later with among | among
        · exact .tail _ (List.mem_append_left _ among)
        · rcases List.mem_cons.1 (unclosedAfter_subset opened token among) with rfl | among
          · exact .head _
          · exact .tail _ (List.mem_append_right _ among)
  have whole := all []
  rwa [List.append_nil] at whole

/-! ### Growths -/

/-- The opening of a construct. -/
def Scope.opener : Scope → Token
  | .group opener _ => opener
  | .optional opener _ => opener

namespace Growth

/-- The openings of what is open, the innermost first. -/
def openers (growth : Growth) : List Token :=
  (growth.collection.map Prod.fst).toList ++ growth.scopes.map Scope.opener

@[simp] theorem openers_withPieces (growth : Growth) (pieces : Tree .concat) :
    (growth.withPieces pieces).openers = growth.openers := by
  rcases growth with ⟨base, scopes, collection, dollarEnds⟩
  rcases scopes with _ | ⟨_ | _, outer⟩ <;> rfl

@[simp] theorem openers_add (growth : Growth) (atom : Tree .atom) :
    (growth.add atom).openers = growth.openers := by
  rw [add, openers_withPieces]

@[simp] theorem openers_withDraft (growth : Growth) (draft : Draft) :
    (growth.withDraft draft).openers = growth.openers := by
  rcases growth with ⟨base, scopes, collection, dollarEnds⟩
  rcases scopes with _ | ⟨_ | _, outer⟩ <;> rfl

/-- Outside collections the openings are those of the scopes. -/
theorem openers_outside {growth : Growth} (outside : growth.collection = none) :
    growth.openers = growth.scopes.map Scope.opener := by
  rw [openers, outside]
  rfl

/-- A construct that is innermost is the one whose opening is left open last. -/
theorem openers_of_scopes {growth : Growth} {scope : Scope} {outer : List Scope}
    (outside : growth.collection = none) (scopes : growth.scopes = scope :: outer) :
    growth.openers = scope.opener :: outer.map Scope.opener := by
  rw [openers_outside outside, scopes, List.map_cons]

/-- No literal opens anything. -/
theorem Kinded.opens {growth : Growth} (kinded : growth.Kinded) {opener : Token}
    (among : opener ∈ growth.openers) : opener.kind ≠ .literal := by
  rcases List.mem_append.1 among with inside | outside
  · obtain ⟨⟨_, members⟩, collection, rfl⟩ := Option.map_eq_some_iff.1 (Option.mem_toList.1 inside)
    rw [(kinded.collection _ _ collection).1]
    decide
  · obtain ⟨scope, member, rfl⟩ := List.mem_map.1 outside
    have opens := kinded.scopes scope member
    cases scope with
    | group opener draft => rw [Scope.opener, opens.1]; decide
    | optional opener pieces => rw [Scope.opener, opens.1]; decide

/-- A step opens and closes what its token does. -/
theorem Step.openers_eq {growth after : Growth} {token : Token} {following : Option Token}
    (taken : Step growth token following after) :
    after.openers = Token.unclosedAfter growth.openers token := by
  unfold Token.unclosedAfter
  cases taken with
  | member inside kind => rw [kind, openers, openers, inside]; rfl
  | collectionClose inside kind => rw [kind, openers_add, openers, openers, inside]; rfl
  | literal outside kind => rw [kind, openers_add]
  | caret outside kind => rw [kind, openers_add]
  | dollar outside kind =>
      rw [kind]
      exact openers_add growth (.anchor token (dollarPlace following))
  | quantifier outside kind last => rw [kind, openers_withPieces]
  | assertion outside kind last => rw [kind, openers_withPieces]
  | conjunction outside kind drafting => rw [kind, openers_withDraft]
  | alternative outside kind drafting => rw [kind, openers_withDraft]
  | groupOpen outside kind => rw [kind, openers, openers, outside]; rfl
  | groupClose outside kind scopes =>
      rw [kind, openers_add, openers, openers, outside, scopes]
      rfl
  | collectionOpen outside kind => rw [kind, openers, openers, outside]; rfl
  | optionalOpen outside kind => rw [kind, openers, openers, outside]; rfl
  | optionalClose outside kind scopes nonempty =>
      rw [kind, openers_add, openers, openers, outside, scopes]
      rfl

/-- What a growth has open is what its tokens leave open. -/
theorem Takes.openers_eq_foldl {behind : Option Token} {growth after : Growth}
    {tokens : List Token} (takes : Takes behind growth tokens after) :
    after.openers = tokens.foldl Token.unclosedAfter growth.openers := by
  induction takes with
  | done => rfl
  | step first _ inductionHypothesis =>
      rw [inductionHypothesis, first.openers_eq]
      rfl

/-- From the start, what a growth has open is what the tokens leave open. -/
theorem Takes.openers_eq {behind : Option Token} {after : Growth} {tokens : List Token}
    (takes : Takes behind {} tokens after) : after.openers = Token.unclosed tokens :=
  takes.openers_eq_foldl

/-- The last of some tokens is taken by a step of its own. -/
theorem Takes.exists_last {behind : Option Token} {growth after : Growth}
    {tokens : List Token} {token : Token}
    (takes : Takes behind growth (tokens ++ [token]) after) :
    ∃ middle, Takes (some token) growth tokens middle ∧ Step middle token behind after := by
  obtain ⟨middle, next, early, last, rest⟩ := takes.exists_split
  cases rest
  exact ⟨middle, early, last⟩

end Growth

/-! ### The reading -/

/-- The construct that a token opens, if the reading keeps account of it. -/
def Token.enclosure? (token : Token) : Option Enclosure :=
  (Content.lexeme token.lexeme).opens?.map fun construct =>
    { construct := construct
      position := token.position }

/-- Groups are not on the stack of the reading. -/
theorem Token.enclosure?_groupOpen {token : Token} (kind : token.kind = .groupOpen) :
    token.enclosure? = none := by
  rcases token with ⟨lexeme, raw, position, level⟩
  cases lexeme with
  | groupOpen sort => rfl
  | _ => cases kind

/-- An optional sequence is on the stack of the reading. -/
theorem Token.enclosure?_optionalOpen {token : Token} (kind : token.kind = .optionalOpen) :
    token.enclosure? = some { construct := .optionalMatch, position := token.position } := by
  rcases token with ⟨lexeme, raw, position, level⟩
  cases lexeme with
  | optionalOpen => rfl
  | _ => cases kind

/-- A collection is on the stack of the reading. -/
theorem Token.enclosure?_collectionOpen {token : Token}
    (kind : token.kind = .collectionOpen) :
    ∃ withBreak, token.enclosure? =
      some { construct := .collection withBreak, position := token.position } := by
  rcases token with ⟨lexeme, raw, position, level⟩
  cases lexeme with
  | collectionOpen opening => exact ⟨opening.withBreak, rfl⟩
  | _ => cases kind

namespace Context

/-- The reading has the same constructs open as the growth, apart from groups. -/
def Follows (context : Context) (growth : Growth) : Prop :=
  context.enclosing = growth.openers.filterMap Token.enclosure?

/-- A step keeps the two accounts in agreement. -/
theorem Follows.step {context : Context} {growth after : Growth} {token : Token}
    {following : Option Token} (follows : context.Follows growth) (kinded : growth.Kinded)
    (taken : Growth.Step growth token following after) :
    (context.afterToken token).Follows after := by
  have openers := taken.openers_eq
  -- A closing takes away the innermost opening; which one that is, the step says.
  have innermost {opener : Token} {others : List Token}
      (same : growth.openers = opener :: others) :
      context.enclosing = opener.enclosure?.toList ++ others.filterMap Token.enclosure? := by
    rw [follows, same, List.filterMap_cons]
    cases opener.enclosure? <;> rfl
  rw [Follows, openers]
  rcases token with ⟨lexeme, raw, position, level⟩
  change context.enclosingAfter position lexeme = _
  cases lexeme with
  | collectionOpen opening =>
      rw [enclosingAfter, follows]
      rfl
  | optionalOpen =>
      rw [enclosingAfter, follows]
      rfl
  | groupOpen sort =>
      rw [enclosingAfter, follows]
      · rfl
      all_goals simp
  | collectionClose withBreak =>
      cases taken with
      | @collectionClose opener members inside kind =>
          obtain ⟨opens, _⟩ := kinded.collection _ _ inside
          obtain ⟨closing, opened⟩ := Token.enclosure?_collectionOpen opens
          have same : growth.openers = opener :: growth.scopes.map Scope.opener := by
            rw [Growth.openers, inside]
            rfl
          rw [enclosingAfter, innermost same, opened, same]
          rfl
      | _ => contradiction
  | optionalClose =>
      cases taken with
      | @optionalClose opener pieces outer outside kind scopes nonempty =>
          have opens : opener.kind = .optionalOpen := (kinded.innermost scopes).1
          have same : growth.openers = opener :: outer.map Scope.opener := by
            rw [Growth.openers_outside outside, scopes]
            rfl
          rw [enclosingAfter, innermost same, Token.enclosure?_optionalOpen opens, same]
          rfl
      | _ => contradiction
  | groupClose =>
      cases taken with
      | @groupClose opener draft outer outside kind scopes =>
          have opens : opener.kind = .groupOpen := (kinded.innermost scopes).1
          have same : growth.openers = opener :: outer.map Scope.opener := by
            rw [Growth.openers_outside outside, scopes]
            rfl
          rw [enclosingAfter, innermost same, Token.enclosure?_groupOpen opens, same]
          · rfl
          all_goals simp
      | _ => contradiction
  | _ => exact follows

/-- Where the growth is outside collections, only optional sequences are on the stack of the
reading. -/
theorem Follows.all_optional {context : Context} {growth : Growth}
    (follows : context.Follows growth) (kinded : growth.Kinded)
    (outside : growth.collection = none) :
    ∀ enclosure ∈ context.enclosing, enclosure.construct = .optionalMatch := by
  intro enclosure member
  rw [follows, Growth.openers_outside outside, List.filterMap_map] at member
  obtain ⟨scope, among, opens⟩ := List.mem_filterMap.1 member
  have scopeKinded := kinded.scopes scope among
  cases scope with
  | group opener draft =>
      rw [Function.comp_apply, Scope.opener, Token.enclosure?_groupOpen scopeKinded.1] at opens
      cases opens
  | optional opener pieces =>
      rw [Function.comp_apply, Scope.opener,
        Token.enclosure?_optionalOpen scopeKinded.1] at opens
      cases opens
      rfl

/-- The reading is inside a collection exactly where the growth is. -/
theorem Follows.isSome_collection? {context : Context} {growth : Growth}
    (follows : context.Follows growth) (kinded : growth.Kinded) :
    context.collection?.isSome = growth.collection.isSome := by
  cases collection : growth.collection with
  | none =>
      have optional := follows.all_optional kinded collection
      unfold collection?
      split
      · next enclosing =>
          rw [enclosing] at optional
          cases optional _ (.head _)
      · rfl
  | some gathering =>
      obtain ⟨opener, members⟩ := gathering
      obtain ⟨withBreak, opened⟩ :=
        Token.enclosure?_collectionOpen (kinded.collection _ _ collection).1
      have enclosing : context.enclosing =
          { construct := .collection withBreak
            position := opener.position } ::
              (growth.scopes.map Scope.opener).filterMap Token.enclosure? := by
        rw [follows, Growth.openers, collection]
        simp [opened]
      rw [collection?, enclosing]
      rfl

end Context

/-- Wherever reading comes to, it has the same constructs open as a growth that has taken the
tokens read so far, apart from groups. -/
theorem Scan.Reaches.follows {level : Magicness} {pattern : String} {items : List Item}
    {context : Context} {position : Nat} {rest : List Char} {behind : Option Token}
    {growth : Growth} (reaches : Reaches level pattern items context position rest)
    (takes : Growth.Takes behind {} (items.filterMap Item.token?) growth) :
    context.Follows growth := by
  induction reaches generalizing behind growth with
  | start =>
      cases takes
      rfl
  | @item items context position char text content extra before verdict
      inductionHypothesis =>
      rw [List.filterMap_append] at takes
      cases content with
      | mark mark =>
          have same : ([itemAt context (.mark mark) (char :: text.take extra)
              position].filterMap Item.token?) = [] := rfl
          rw [same, List.append_nil] at takes
          have follows := inductionHypothesis takes
          rwa [contextAfter, Context.Follows, Context.enclosing_afterMark]
      | lexeme lexeme =>
          obtain ⟨middle, early, last⟩ := takes.exists_last
          exact (inductionHypothesis early).step (Growth.Kinded.new.takes early) last

end VimPattern
