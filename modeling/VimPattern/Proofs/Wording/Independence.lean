/-
Module: VimPattern.Proofs.Wording.Independence
Purpose: The settings decide how a pattern is worded, and only the level what it means.
Main exports:
  Rendered.Alike, TextGrowth.Alike, TextGrowth.Alike.step, TextGrowth.Alike.run,
  Meaning, Conversion.meaning, Translation.meaning, alike_translate,
  meaning_eq_of_magicness_eq
-/
import VimPattern.Proofs.Wording.Renaming

namespace VimPattern

/-!
Two conversions of one pattern may be asked for texts that have nothing in common: other
classes, other line breaks, case folded in one of them and anchors widened in the other.
The scanner is not told any of this.  Where the texts are put together they lie next to
everything that decides a step, but no step looks at them: two growths that differ in their
texts alone, given tokens that do, take the same step or refuse it alike, and still differ
in their texts alone.  So all that is left of the settings in the end of a conversion, apart
from its text, is the level they start at.
-/

/-! ### What differs in texts alone -/

/-- The tokens differ in their texts alone. -/
def Rendered.Alike (first second : Rendered) : Prop :=
  ∃ text, second = { first with text := text }

/-- The pieces differ in their texts alone. -/
def TextPiece.Alike (first second : TextPiece) : Prop :=
  ∃ text, second = { first with text := text }

/-- The current pieces of the drafts do.  What stands before them is nothing but text. -/
def TextDraft.Alike (first second : TextDraft) : Prop :=
  List.Forall₂ TextPiece.Alike first.pieces second.pieces

/-- The same construct is open, but for texts. -/
inductive TextScope.Alike : TextScope → TextScope → Prop
  | group {opener other : Rendered} {first second : TextDraft}
      (openers : opener.Alike other) (drafts : first.Alike second) :
      Alike (.group opener first) (.group other second)
  | optional {opener other : Rendered} {first second : List TextPiece}
      (openers : opener.Alike other) (pieces : List.Forall₂ TextPiece.Alike first second) :
      Alike (.optional opener first) (.optional other second)

/-- The growths differ in their texts alone. -/
structure TextGrowth.Alike (first second : TextGrowth) : Prop where
  base : first.base.Alike second.base
  scopes : List.Forall₂ TextScope.Alike first.scopes second.scopes
  collection :
    Option.Rel (fun inside other => inside.1.Alike other.1) first.collection second.collection
  dollarEnds : first.dollarEnds = second.dollarEnds

/-- Both steps are refused for one reason, or lead to growths that differ in their texts
alone. -/
inductive TextGrowth.SameStep :
    Except Refusal TextGrowth → Except Refusal TextGrowth → Prop
  | refused (refusal : Refusal) : SameStep (.error refusal) (.error refusal)
  | taken {first second : TextGrowth} (alike : first.Alike second) :
      SameStep (.ok first) (.ok second)

/-- An optional sequence is empty if it has no atoms, whatever their texts are. -/
theorem TextPiece.isEmpty_chain (pieces : List TextPiece) :
    (chain pieces).isEmpty = pieces.isEmpty := by
  have optional : ∃ parts, chain pieces = .optionalChain parts ∧
      parts.isEmpty = pieces.isEmpty := by
    induction pieces with
    | nil => exact ⟨[], rfl, rfl⟩
    | cons piece before inductionHypothesis =>
        obtain ⟨parts, same, _⟩ := inductionHypothesis
        refine ⟨parts ++ [piece.text], by rw [chain, same]; rfl, ?_⟩
        exact List.isEmpty_eq_false_iff.2 (List.concat_ne_nil _ _)
  obtain ⟨parts, same, empty⟩ := optional
  rw [same]
  exact empty

namespace TextGrowth.Alike

variable {first second : TextGrowth} {token other : Rendered}

theorem pieces (alike : first.Alike second) :
    List.Forall₂ TextPiece.Alike first.pieces second.pieces := by
  rcases first with ⟨base, scopes, collection, ends⟩
  rcases second with ⟨base', scopes', collection', ends'⟩
  obtain ⟨bases, scopesAlike, _, _⟩ := alike
  cases scopesAlike with
  | nil => exact bases
  | cons innermost outer =>
      cases innermost with
      | group openers drafts => exact drafts
      | optional openers pieces => exact pieces

theorem withPieces (alike : first.Alike second) {pieces others : List TextPiece}
    (same : List.Forall₂ TextPiece.Alike pieces others) :
    (first.withPieces pieces).Alike (second.withPieces others) := by
  rcases first with ⟨base, scopes, collection, ends⟩
  rcases second with ⟨base', scopes', collection', ends'⟩
  obtain ⟨bases, scopesAlike, collections, notes⟩ := alike
  cases scopesAlike with
  | nil => exact ⟨same, .nil, collections, notes⟩
  | cons innermost outer =>
      cases innermost with
      | group openers drafts =>
          exact ⟨bases, .cons (.group openers same) outer, collections, notes⟩
      | optional openers pieces =>
          exact ⟨bases, .cons (.optional openers same) outer, collections, notes⟩

/-- Opening or closing a construct keeps the rest. -/
theorem withScopes (alike : first.Alike second) {inner others : List TextScope}
    (same : List.Forall₂ TextScope.Alike inner others) :
    ({ first with scopes := inner } : TextGrowth).Alike { second with scopes := others } :=
  ⟨alike.base, same, alike.collection, alike.dollarEnds⟩

/-- Atoms that begin with the same token are the same piece but for their texts. -/
theorem add (alike : first.Alike second) (tokens : token.Alike other)
    (text otherText : String) :
    (first.add token text).Alike (second.add other otherText) := by
  obtain ⟨_, rfl⟩ := tokens
  exact alike.withPieces (.cons ⟨otherText, rfl⟩ alike.pieces)

theorem outsideGroups (alike : first.Alike second) :
    first.outsideGroups = second.outsideGroups := by
  have scopes := alike.scopes
  rw [TextGrowth.outsideGroups, TextGrowth.outsideGroups]
  generalize first.scopes = inner at scopes ⊢
  generalize second.scopes = others at scopes ⊢
  induction scopes with
  | nil => rfl
  | cons innermost outer inductionHypothesis =>
      rw [List.all_cons, List.all_cons, inductionHypothesis]
      cases innermost <;> rfl

theorem endsAlternative {following behind : Option Rendered}
    (followings : Option.Rel Rendered.Alike following behind) :
    TextGrowth.endsAlternative following = TextGrowth.endsAlternative behind := by
  cases followings with
  | none => rfl
  | some tokens =>
      obtain ⟨_, rfl⟩ := tokens
      rfl

theorem addDollar (alike : first.Alike second) (tokens : token.Alike other)
    {following behind : Option Rendered}
    (followings : Option.Rel Rendered.Alike following behind) :
    (first.addDollar token following).Alike (second.addDollar other behind) := by
  have added := alike.add tokens (token.anchorText (TextGrowth.dollarPlace following))
    (other.anchorText (TextGrowth.dollarPlace behind))
  refine ⟨added.base, added.scopes, added.collection, ?_⟩
  rw [TextGrowth.addDollar, TextGrowth.addDollar, alike.outsideGroups, alike.dollarEnds,
    endsAlternative followings]

/-! ### Steps -/

theorem quantify (alike : first.Alike second) (tokens : token.Alike other) :
    SameStep (first.quantify token) (second.quantify other) := by
  obtain ⟨_, rfl⟩ := tokens
  have pieces := alike.pieces
  rw [TextGrowth.quantify, TextGrowth.quantify]
  generalize first.pieces = own at pieces ⊢
  generalize second.pieces = others at pieces ⊢
  cases pieces with
  | nil => exact .refused _
  | @cons piece _ before _ last rest =>
      obtain ⟨_, rfl⟩ := last
      dsimp only
      split
      · exact .refused _
      · exact .taken (alike.withPieces (.cons ⟨_, rfl⟩ rest))

theorem assert (alike : first.Alike second) (tokens : token.Alike other) :
    SameStep (first.assert token) (second.assert other) := by
  obtain ⟨_, rfl⟩ := tokens
  have pieces := alike.pieces
  rw [TextGrowth.assert, TextGrowth.assert]
  generalize first.pieces = own at pieces ⊢
  generalize second.pieces = others at pieces ⊢
  cases pieces with
  | nil => exact .refused _
  | cons last rest =>
      obtain ⟨_, rfl⟩ := last
      exact .taken (alike.withPieces (.cons ⟨_, rfl⟩ rest))

/-- A separator leaves no pieces behind. -/
theorem separate (alike : first.Alike second) (tokens : token.Alike other)
    {renew : TextDraft → TextDraft} (renewed : ∀ draft, (renew draft).pieces = []) :
    SameStep (first.separate token renew) (second.separate other renew) := by
  obtain ⟨_, rfl⟩ := tokens
  have drafts (draft draft' : TextDraft) : (renew draft).Alike (renew draft') := by
    rw [TextDraft.Alike, renewed, renewed]
    exact .nil
  have scopes := alike.scopes
  rw [TextGrowth.separate, TextGrowth.separate]
  generalize first.scopes = inner at scopes ⊢
  generalize second.scopes = others at scopes ⊢
  cases scopes with
  | nil => exact .taken ⟨drafts _ _, .nil, alike.collection, alike.dollarEnds⟩
  | cons innermost outer =>
      cases innermost with
      | group openers _ =>
          exact .taken (alike.withScopes (.cons (.group openers (drafts _ _)) outer))
      | optional => exact .refused _

theorem closeGroup (alike : first.Alike second) (tokens : token.Alike other) :
    SameStep (first.closeGroup token) (second.closeGroup other) := by
  obtain ⟨_, rfl⟩ := tokens
  have scopes := alike.scopes
  rw [TextGrowth.closeGroup, TextGrowth.closeGroup]
  generalize first.scopes = inner at scopes ⊢
  generalize second.scopes = others at scopes ⊢
  cases scopes with
  | nil => exact .refused _
  | cons innermost outer =>
      cases innermost with
      | group openers _ => exact .taken ((alike.withScopes outer).add openers _ _)
      | optional => exact .refused _

theorem closeOptional (alike : first.Alike second) (tokens : token.Alike other) :
    SameStep (first.closeOptional token) (second.closeOptional other) := by
  obtain ⟨_, rfl⟩ := tokens
  have scopes := alike.scopes
  rw [TextGrowth.closeOptional, TextGrowth.closeOptional]
  generalize first.scopes = inner at scopes ⊢
  generalize second.scopes = others at scopes ⊢
  cases scopes with
  | nil => exact .refused _
  | cons innermost outer =>
      cases innermost with
      | group openers _ =>
          obtain ⟨_, rfl⟩ := openers
          exact .refused _
      | @optional _ _ atoms atoms' openers pieces =>
          have empty : (TextPiece.chain atoms').isEmpty = (TextPiece.chain atoms).isEmpty := by
            rw [TextPiece.isEmpty_chain, TextPiece.isEmpty_chain]
            cases pieces <;> rfl
          dsimp only
          rw [empty]
          split
          · obtain ⟨_, rfl⟩ := openers
            exact .refused _
          · exact .taken ((alike.withScopes outer).add openers _ _)

theorem stepInCollection (alike : first.Alike second) (tokens : token.Alike other)
    {opener opener' : Rendered} (openers : opener.Alike opener') (text text' : String) :
    SameStep (first.stepInCollection opener text token)
      (second.stepInCollection opener' text' other) := by
  obtain ⟨_, rfl⟩ := tokens
  rw [TextGrowth.stepInCollection, TextGrowth.stepInCollection]
  dsimp only
  split
  · exact .taken ⟨alike.base, alike.scopes, .some openers, alike.dollarEnds⟩
  · have outside : ({ first with collection := none } : TextGrowth).Alike
        { second with collection := none } :=
      ⟨alike.base, alike.scopes, .none, alike.dollarEnds⟩
    exact .taken (outside.add openers _ _)
  · exact .refused _

theorem stepOutside (alike : first.Alike second) (tokens : token.Alike other)
    {following behind : Option Rendered}
    (followings : Option.Rel Rendered.Alike following behind) :
    SameStep (first.stepOutside token following) (second.stepOutside other behind) := by
  have kind : other.kind = token.kind := by
    obtain ⟨_, rfl⟩ := tokens
    rfl
  rw [TextGrowth.stepOutside, TextGrowth.stepOutside, kind]
  cases token.kind with
  | literal => exact .taken (alike.add tokens _ _)
  | caret => exact .taken (alike.add tokens _ _)
  | dollar => exact .taken (alike.addDollar tokens followings)
  | quantifier => exact alike.quantify tokens
  | assertion => exact alike.assert tokens
  | conjunction => exact alike.separate tokens fun _ => rfl
  | alternative => exact alike.separate tokens fun _ => rfl
  | groupOpen =>
      exact .taken (alike.withScopes (.cons (.group tokens .nil) alike.scopes))
  | groupClose => exact alike.closeGroup tokens
  | collectionOpen =>
      exact .taken ⟨alike.base, alike.scopes, .some tokens, alike.dollarEnds⟩
  | collectionClose =>
      obtain ⟨_, rfl⟩ := tokens
      exact .refused _
  | optionalOpen =>
      exact .taken (alike.withScopes (.cons (.optional tokens .nil) alike.scopes))
  | optionalClose => exact alike.closeOptional tokens

/-- No step looks at a text. -/
theorem step (alike : first.Alike second) (tokens : token.Alike other)
    {following behind : Option Rendered}
    (followings : Option.Rel Rendered.Alike following behind) :
    SameStep (first.step token following) (second.step other behind) := by
  have collections := alike.collection
  rw [TextGrowth.step, TextGrowth.step]
  generalize first.collection = inside at collections ⊢
  generalize second.collection = insideOther at collections ⊢
  cases collections with
  | none => exact alike.stepOutside tokens followings
  | some openers => exact alike.stepInCollection tokens openers _ _

/-- A pattern is over for both growths or for neither. -/
theorem finish (alike : first.Alike second) (position : Nat) :
    (first.finish position).map (fun _ => ()) = (second.finish position).map fun _ => () := by
  rcases first with ⟨base, scopes, collection, ends⟩
  rcases second with ⟨base', scopes', collection', ends'⟩
  obtain ⟨_, scopesAlike, collections, _⟩ := alike
  cases collections with
  | none =>
      cases scopesAlike with
      | nil => rfl
      | cons innermost outer =>
          cases innermost with
          | group openers drafts =>
              obtain ⟨_, rfl⟩ := openers
              rfl
          | optional => rfl
  | some => rfl

end TextGrowth.Alike

/-! ### Whole patterns -/

/-- What a worded pattern says besides its text. -/
def Worded.facts (worded : Worded) : Bool × Context :=
  (worded.dollarEnds, worded.context)

/-- Tokens that differ in their texts alone lead to the same end. -/
theorem TextGrowth.Alike.run {first second : TextGrowth} (alike : first.Alike second)
    {tokens others : List Rendered} (rows : List.Forall₂ Rendered.Alike tokens others)
    (stop : Except ScanError Terminus) (read : Nat) :
    (first.run stop read tokens).map Worded.facts =
      (second.run stop read others).map Worded.facts := by
  induction rows generalizing first second read with
  | nil =>
      simp only [TextGrowth.run]
      cases stop with
      | error error => rfl
      | ok terminus =>
          have finished := alike.finish terminus.position
          dsimp only
          cases one : first.finish terminus.position <;>
            cases two : second.finish terminus.position <;>
              rw [one, two] at finished <;> cases finished
          · rfl
          · exact congrArg (fun ends => Except.ok (ends, terminus.context)) alike.dollarEnds
  | @cons token other tokens others same rows inductionHypothesis =>
      have following : Option.Rel Rendered.Alike tokens.head? others.head? := by
        cases rows with
        | nil => exact .none
        | cons next _ => exact .some next
      have stepped := alike.step same following
      simp only [TextGrowth.run]
      generalize first.step token tokens.head? = one at stepped ⊢
      generalize second.step other others.head? = two at stepped ⊢
      cases stepped with
      | taken after => exact inductionHypothesis after (read + 1)
      | refused refusal =>
          -- What is reported depends on whether a token is left, and on one side there is
          -- one exactly if there is one on the other.
          rcases refusal with ⟨cause, _ | _⟩ <;> cases rows <;> cases stop <;> rfl

/-! ### Conversions -/

/-- What becomes of a pattern, texts apart: the cause it fails for, or the level in effect
at its end with the facts about it. -/
abbrev Meaning := Except Cause (Magicness × Metadata)

/-- What a translation comes to, texts apart. -/
def Translation.meaning (outcome : Except ConversionError Translation) : Meaning :=
  (outcome.map Translation.report).mapError ConversionError.cause

/-- What a conversion comes to, texts apart. -/
def Conversion.meaning (outcome : Except ConversionError Conversion) : Meaning :=
  (outcome.map Conversion.report).mapError ConversionError.cause

/-- The first pass decides what becomes of a pattern. -/
theorem Conversion.meaning_convertInPasses (options : Options) (pattern : String) :
    meaning (convertInPasses options pattern) =
      Translation.meaning
        (translate options (foldsCase options pattern) false pattern).outcome := by
  have reported := report_convertInPasses options pattern
  rw [meaning, reported, Translation.meaning]

section TwoSettings

variable {first second : Options}

/-- A row of tokens, rendered twice, differs in its texts alone. -/
theorem alike_rendered (style other : Style) (tokens : List Token) :
    List.Forall₂ Rendered.Alike (tokens.map (Token.rendered style))
      (tokens.map (Token.rendered other)) := by
  induction tokens with
  | nil => exact .nil
  | cons token tokens inductionHypothesis =>
      exact .cons ⟨token.text other, rfl⟩ inductionHypothesis

/-- Passes over a pattern from the same level read the same tokens but for their texts, and
come to the same end. -/
theorem alike_translate (same : first.magicness = second.magicness)
    (foldCase otherFold namedGroups otherNames : Bool) (pattern : String) :
    List.Forall₂ Rendered.Alike (translate first foldCase namedGroups pattern).tokens
        (translate second otherFold otherNames pattern).tokens ∧
      Translation.meaning (translate first foldCase namedGroups pattern).outcome =
        Translation.meaning (translate second otherFold otherNames pattern).outcome := by
  have rows : List.Forall₂ Rendered.Alike (renderedTokens first foldCase namedGroups pattern)
      (renderedTokens second otherFold otherNames pattern) := by
    rw [renderedTokens, renderedTokens, same]
    exact alike_rendered _ _ _
  have beginning : ({} : TextGrowth).Alike {} := ⟨.nil, .nil, .none, rfl⟩
  have runs := beginning.run rows (Scan.ofPattern second.magicness pattern).result 0
  rw [translate, translate, same]
  dsimp only
  generalize TextGrowth.run _ _ _ (renderedTokens first foldCase namedGroups pattern) = one
    at runs ⊢
  generalize TextGrowth.run _ _ _ (renderedTokens second otherFold otherNames pattern) = two
    at runs ⊢
  cases one with
  | ok worded =>
      cases two with
      | ok other =>
          injection runs with facts
          injection facts with ends context
          refine ⟨rows, ?_⟩
          simp only [Translation.meaning, Except.map, Translation.report, ends, context]
      | error failure => cases runs
  | error failure =>
      cases two with
      | ok other => cases runs
      | error other =>
          injection runs with failures
          subst failures
          exact ⟨List.forall₂_take failure.read rows, rfl⟩

end TwoSettings

/-- What becomes of a pattern depends on the pattern and on the level it starts at.  Any two
settings that agree on the level refuse it for the same cause, or convert it to the same
level and the same facts.  Going through it they read the same tokens but for the texts, so
that they also agree on whether it has to be gone through again. -/
theorem meaning_eq_of_magicness_eq {first second : Options}
    (same : first.magicness = second.magicness) (pattern : String) :
    Conversion.meaning (convert first pattern) = Conversion.meaning (convert second pattern) ∧
      ∀ foldCase otherFold namedGroups otherNames : Bool,
        List.Forall₂ Rendered.Alike (translate first foldCase namedGroups pattern).tokens
            (translate second otherFold otherNames pattern).tokens ∧
          Translation.meaning (translate first foldCase namedGroups pattern).outcome =
            Translation.meaning (translate second otherFold otherNames pattern).outcome := by
  refine ⟨?_, fun foldCase otherFold namedGroups otherNames =>
    alike_translate same foldCase otherFold namedGroups otherNames pattern⟩
  rw [← convertInPasses_eq, ← convertInPasses_eq, Conversion.meaning_convertInPasses,
    Conversion.meaning_convertInPasses]
  exact (alike_translate same _ _ _ _ pattern).2

/-- Settings that share nothing but the level give `\(\i\n\)\1\zs$` different texts, and agree
on what else becomes of it. -/
theorem meaning_eq_of_magicness_eq_magic :
    let settings : Options :=
      { identChars := "z"
        keywordChars := "y"
        fileNameChars := "x"
        printableChars := "w"
        ignoreCase := true
        forceMultiline := true
        newLine := "\\r\\n" }
    let pattern := "\\(\\i\\n\\)\\1\\zs$"
    settings.magicness = ({} : Options).magicness ∧
      convertText settings pattern =
          .ok "(?i:(?<g1>[z0-9](?:\\r\\n))\\k<g1>(?<zs>)(?=\\r\\n|$))" ∧
        convertText {} pattern =
            .ok "(?<g1>[A-Za-z_\\xC0-\\xFF0-9]\\n)\\k<g1>(?<zs>)$" ∧
          Conversion.meaning (convert settings pattern) =
            Conversion.meaning (convert {} pattern) := by
  intro settings pattern
  have same : settings.magicness = ({} : Options).magicness := rfl
  refine ⟨same, ?_, ?_, (meaning_eq_of_magicness_eq same pattern).1⟩
  · decide +kernel
  · decide +kernel

end VimPattern
