/-
Module: VimPattern.Proofs.Tree.Contributions
Purpose: What an anchor contributes to the text that its pattern is converted to.
Main exports:
  Trace.Spares, Trace.Bears, Trace.Contributes, Trace.Accounts, Tree.Anchors,
  Tree.Kinded.accounts, Trace.contributes_ofPattern
-/
import Mathlib.Algebra.GroupWithZero.Nat
import Mathlib.Data.List.Induction
import Mathlib.Data.List.Nodup
import VimPattern.Proofs.Grammar.Balance
import VimPattern.Proofs.Grammar.Lexemes
import VimPattern.Proofs.Grammar.Placed
import VimPattern.Proofs.Scan.Sites
import VimPattern.Proofs.Tree.Parts
import VimPattern.Proofs.Tree.Trace

namespace VimPattern

/-!
The notes of a trace say what a token contributes to the target: the characters that were
written for it.  For an anchor these are copies of the text that its place calls for.  There is
one copy, unless the anchor stands in an optional sequence, however deep: such a sequence writes
its pieces once for each leading stretch that they are part of.
-/

/-! ### Traces -/

namespace Trace

/-- No character of the trace was written for the token. -/
def Spares (trace : Trace) (token : Token) : Prop :=
  ∀ glyph ∈ trace, glyph.source ≠ some token

instance (trace : Trace) (token : Token) : Decidable (trace.Spares token) :=
  inferInstanceAs (Decidable (∀ glyph ∈ trace, glyph.source ≠ some token))

/-- What was written for the token are so many copies of the text, each of them in one piece. -/
inductive Bears (token : Token) (text : String) : Nat → Trace → Prop where
  | none {trace : Trace} (spares : trace.Spares token) : Bears token text 0 trace
  | more {times : Nat} {front back : Trace} (spares : front.Spares token)
      (others : Bears token text times back) :
      Bears token text (times + 1) (front ++ Target.spell (some token) text ++ back)

/-- Standing behind these tokens, the token contributes the text to the trace and nothing else:
once, if no optional sequence is open there, and once or more otherwise. -/
def Contributes (trace : Trace) (before : List Token) (token : Token) (text : String) : Prop :=
  ∃ times, Bears token text times trace ∧ 1 ≤ times ∧
    ((∀ opener ∈ Token.unclosed before, opener.kind ≠ .optionalOpen) → times = 1)

variable {token : Token} {text : String}

theorem spares_append {front back : Trace} :
    (front ++ back).Spares token ↔ front.Spares token ∧ back.Spares token :=
  List.forall_mem_append

/-- What is written for something else spares the token. -/
theorem spares_spell {source : Option Token} (other : source ≠ some token) (written : String) :
    Spares (Target.spell source written) token := by
  intro glyph member
  obtain ⟨char, _, rfl⟩ := List.mem_map.1 member
  exact other

theorem spares_glue (written : String) : (glue written).Spares token :=
  spares_spell (Option.some_ne_none token).symm written

/-- Text for something else may stand in front. -/
theorem Bears.behind {front back : Trace} {times : Nat} (spares : front.Spares token)
    (bears : Bears token text times back) : Bears token text times (front ++ back) := by
  cases bears with
  | none others => exact .none (spares_append.2 ⟨spares, others⟩)
  | more first others =>
      rw [← List.append_assoc, ← List.append_assoc]
      exact .more (spares_append.2 ⟨spares, first⟩) others

/-- Side by side, what two traces bear adds up. -/
theorem Bears.append {front back : Trace} {early late : Nat}
    (first : Bears token text early front) (second : Bears token text late back) :
    Bears token text (early + late) (front ++ back) := by
  induction first with
  | none spares =>
      rw [Nat.zero_add]
      exact second.behind spares
  | @more times _ _ spares _ inductionHypothesis =>
      rw [Nat.add_right_comm, List.append_assoc]
      exact .more spares inductionHypothesis

/-- Text for something else may stand around. -/
theorem Bears.around {front body back : Trace} {times : Nat} (early : front.Spares token)
    (bears : Bears token text times body) (late : back.Spares token) :
    Bears token text times (front ++ body ++ back) :=
  (bears.behind early).append (.none late)

/-- A text that has characters cannot be written for a token that is spared. -/
theorem Bears.eq_zero {trace : Trace} {times : Nat} (bears : Bears token text times trace)
    (written : text ≠ "") (spares : trace.Spares token) : times = 0 := by
  cases bears with
  | none _ => rfl
  | @more times front back _ _ =>
      exfalso
      have characters : text.toList ≠ [] := mt String.toList_eq_nil_iff.1 written
      obtain ⟨char, rest, split⟩ := List.exists_cons_of_ne_nil characters
      have first : ({ char := char, source := some token } : Target.Glyph (Option Token)) ∈
          front ++ Target.spell (some token) text ++ back := by
        simp [Target.spell, split]
      exact spares _ first rfl

/-- However many copies there are of the empty text, nothing is written for the token. -/
theorem Bears.spares {trace : Trace} {times : Nat} (bears : Bears token "" times trace) :
    trace.Spares token := by
  induction bears with
  | none spares => exact spares
  | more spares _ inductionHypothesis =>
      have empty : Spares (Target.spell (some token) "") token := List.forall_mem_nil _
      exact spares_append.2 ⟨spares_append.2 ⟨spares, empty⟩, inductionHypothesis⟩

/-- To a trace that spares the token it contributes no text that has characters. -/
theorem not_contributes {trace : Trace} {before : List Token} (written : text ≠ "")
    (spares : trace.Spares token) : ¬trace.Contributes before token text := by
  rintro ⟨times, bears, least, _⟩
  rw [bears.eq_zero written spares] at least
  exact absurd least (by decide)

/-! ### Traces that are put together -/

variable {traces : List Trace} {counts : List Nat}

theorem bears_flatten (bears : List.Forall₂ (Bears token text) counts traces) :
    Bears token text counts.sum traces.flatten := by
  induction bears with
  | nil => exact .none (List.forall_mem_nil _)
  | cons first _ inductionHypothesis =>
      rw [List.sum_cons, List.flatten_cons]
      exact first.append inductionHypothesis

theorem bears_separated (bears : List.Forall₂ (Bears token text) counts traces) :
    Bears token text counts.sum (separated traces) := by
  unfold separated
  induction bears with
  | nil => exact .none (List.forall_mem_nil _)
  | cons first rest inductionHypothesis =>
      cases rest with
      | nil => simpa using first
      | cons second rest =>
          rw [List.sum_cons, List.intercalate_cons_cons, List.append_assoc]
          exact first.append (inductionHypothesis.behind (spares_glue "|"))

theorem bears_conjunction (bears : List.Forall₂ (Bears token text) counts traces) :
    Bears token text counts.sum (conjunction traces) := by
  induction bears with
  | nil => exact .none (List.forall_mem_nil _)
  | cons first rest inductionHypothesis =>
      cases rest with
      | nil => simpa [conjunction] using first
      | cons second rest =>
          exact (first.around (spares_glue "(?=") (spares_glue ")")).append inductionHypothesis

/-- How many copies the leading stretches of some parts hold together, given how many each part
holds. -/
def chained (counts : List Nat) : Nat :=
  ((leadingStretches counts).map List.sum).sum

/-- The longest stretch comes first, and the others are those of the parts but the last. -/
theorem chained_concat (counts : List Nat) (last : Nat) :
    chained (counts ++ [last]) = (counts ++ [last]).sum + chained counts := by
  rw [chained, leadingStretches_concat, List.map_cons, List.sum_cons, chained]

/-- Each part is in the longest stretch. -/
theorem sum_le_chained (counts : List Nat) : counts.sum ≤ chained counts := by
  cases counts using List.reverseRecOn with
  | nil => exact Nat.zero_le _
  | append_singleton counts last =>
      rw [chained_concat]
      exact Nat.le_add_right _ _

/-- If the parts hold nothing, then neither do their stretches. -/
theorem chained_eq_zero (none : counts.sum = 0) : chained counts = 0 := by
  induction counts using List.reverseRecOn with
  | nil => rfl
  | append_singleton counts last inductionHypothesis =>
      rw [chained_concat, none, Nat.zero_add]
      rw [List.sum_append] at none
      exact inductionHypothesis (Nat.eq_zero_of_add_eq_zero_right none)

theorem bears_chain (bears : List.Forall₂ (Bears token text) counts traces) :
    Bears token text (chained counts) (chain traces) := by
  have joined :
      List.Forall₂ (Bears token text) ((leadingStretches counts).map List.sum)
        ((leadingStretches traces).map List.flatten) := by
    rw [List.forall₂_map_left_iff, List.forall₂_map_right_iff]
    exact (forall₂_leadingStretches bears).imp fun _ _ => bears_flatten
  exact (bears_separated joined).around (spares_glue "(?:") (spares_glue ")")

theorem Bears.withCase {body : Trace} {times : Nat} (bears : Bears token text times body)
    (foldCase : Bool) : Bears token text times (Trace.withCase foldCase body) := by
  unfold Trace.withCase
  split
  · exact bears.around (spares_glue "(?i:") (spares_glue ")")
  · exact bears

end Trace

/-! ### Parts of a tree -/

namespace Trace

/-- The traces account for the tokens they were written with: they hold at least as many copies
of the text as the token has places among them, and more only if it is sheltered. -/
def Accounts (token : Token) (text : String) (traces : List Trace) (tokens : List Token) : Prop :=
  ∃ counts, List.Forall₂ (Bears token text) counts traces ∧ tokens.count token ≤ counts.sum ∧
    (counts.sum = tokens.count token ∨ Token.Sheltered tokens token)

variable {token : Token} {text : String} {traces : List Trace} {tokens : List Token}

/-- Nothing needs to be written for tokens of which none is the token. -/
theorem accounts_nil (absent : token ∉ tokens) : Accounts token text [] tokens := by
  have none := List.count_eq_zero.2 absent
  exact ⟨[], .nil, Nat.le_of_eq none, .inl none.symm⟩

/-- What is written for such tokens may be anything that spares the token. -/
theorem accounts_spared {trace : Trace} (spares : trace.Spares token) (absent : token ∉ tokens) :
    Accounts token text [trace] tokens := by
  have none := List.count_eq_zero.2 absent
  exact ⟨[0], .cons (.none spares) .nil, Nat.le_of_eq none, .inl none.symm⟩

theorem Accounts.append {others : List Trace} {behind : List Token}
    (first : Accounts token text traces tokens) (second : Accounts token text others behind) :
    Accounts token text (traces ++ others) (tokens ++ behind) := by
  obtain ⟨early, bearsFirst, leastFirst, exactFirst⟩ := first
  obtain ⟨late, bearsSecond, leastSecond, exactSecond⟩ := second
  refine ⟨early ++ late, List.rel_append bearsFirst bearsSecond, ?_, ?_⟩
  · rw [List.count_append, List.sum_append]
    exact Nat.add_le_add leastFirst leastSecond
  · rcases exactFirst with exactFirst | sheltered
    · rcases exactSecond with exactSecond | sheltered
      · left
        rw [List.count_append, List.sum_append, exactFirst, exactSecond]
      · right
        simpa using sheltered.around tokens []
    · right
      simpa using sheltered.around [] behind

/-- Tokens of which none is the token make no difference around the others. -/
theorem Accounts.around {front back : List Token} (accounts : Accounts token text traces tokens)
    (early : token ∉ front) (late : token ∉ back) :
    Accounts token text traces (front ++ tokens ++ back) := by
  have whole := ((accounts_nil early).append accounts).append (accounts_nil late)
  rwa [List.nil_append, List.append_nil] at whole

/-- Parts become one part that holds what they hold. -/
theorem Accounts.whole (accounts : Accounts token text traces tokens) {whole : Trace}
    (assembled : ∀ counts, List.Forall₂ (Bears token text) counts traces →
      Bears token text counts.sum whole) : Accounts token text [whole] tokens := by
  obtain ⟨counts, bears, least, exactly⟩ := accounts
  refine ⟨[counts.sum], .cons (assembled counts bears) .nil, ?_, ?_⟩
  · rwa [List.sum_singleton]
  · rwa [List.sum_singleton]

/-- An optional sequence holds what its leading stretches hold together. -/
theorem Accounts.chain (accounts : Accounts token text traces tokens)
    (balanced : Token.Balanced tokens) {opener closer : Token}
    (opens : opener.kind = .optionalOpen) (first : opener ≠ token) (last : closer ≠ token) :
    Accounts token text [Trace.chain traces] (opener :: (tokens ++ [closer])) := by
  obtain ⟨counts, bears, least, exactly⟩ := accounts
  have same : (opener :: (tokens ++ [closer])).count token = tokens.count token := by
    simp [first, last]
  refine ⟨[chained counts], .cons (bears_chain bears) .nil, ?_, ?_⟩
  · rw [same, List.sum_singleton]
    exact Nat.le_trans least (sum_le_chained counts)
  · by_cases among : token ∈ tokens
    · exact .inr (balanced.sheltered opens among closer)
    · have none := List.count_eq_zero.2 among
      have nothing : counts.sum = 0 :=
        exactly.elim (fun exactly => exactly.trans none) fun sheltered =>
          absurd sheltered.mem among
      left
      rw [same, none, List.sum_singleton, chained_eq_zero nothing]

end Trace

namespace Tree

/-- Wherever the tree has the token, it is an anchor at this place. -/
def Anchors {rank : Rank} (tree : Tree rank) (token : Token) (place : Place) : Prop :=
  ∀ entry ∈ tree.placed, entry.1 = token → entry.2 = some place

section

variable {entries : List Placed} {token other opener closer : Token} {place : Place}

/-- A token without a place is another one than the token that has one. -/
theorem ne_of_unplaced (anchors : ∀ entry ∈ entries, entry.1 = token → entry.2 = some place)
    (among : (other, none) ∈ entries) : other ≠ token := by
  intro same
  cases anchors _ among same

/-- Of an opening and a closing neither has a place, so only what stands between them can be the
token that has one. -/
theorem anchors_enclosed
    (anchors : ∀ entry ∈ (opener, none) :: (entries ++ [(closer, none)]),
      entry.1 = token → entry.2 = some place) :
    opener ≠ token ∧ (∀ entry ∈ entries, entry.1 = token → entry.2 = some place) ∧
      closer ≠ token := by
  refine ⟨ne_of_unplaced anchors (.head _), ?_, ne_of_unplaced anchors (by simp)⟩
  intro entry among
  exact anchors entry (.tail _ (List.mem_append_left _ among))

end

open Trace

/-- What a kinded tree is assembled from accounts for the tokens of the tree. -/
theorem Kinded.accounts {style : Style} {token : Token} {place : Place} {rank : Rank}
    {tree : Tree rank} (kinded : tree.Kinded) (anchors : tree.Anchors token place) :
    Accounts token (anchorText style token place) (tree.traces style) tree.tokens := by
  have spared {other : Token} (unlike : other ≠ token) : (other.trace style).Spares token :=
    spares_spell (mt Option.some.inj unlike) _
  have alone {other : Token} (unlike : other ≠ token) : token ∉ [other] :=
    mt List.mem_singleton.1 unlike.symm
  induction tree with
  | literal other =>
      have unlike := ne_of_unplaced anchors (.head _)
      exact accounts_spared (spared unlike) (alone unlike)
  | anchor other here =>
      by_cases same : other = token
      · subst same
        obtain rfl : here = place :=
          Option.some.inj (List.forall_mem_singleton.1 anchors rfl)
        have once : Bears other (anchorText style other here) 1
            ([] ++ Target.spell (some other) (anchorText style other here) ++ []) :=
          .more (List.forall_mem_nil _) (.none (List.forall_mem_nil _))
        rw [List.nil_append, List.append_nil] at once
        exact ⟨[1], .cons once .nil, by simp [tokens], by simp [tokens]⟩
      · exact accounts_spared (spares_spell (mt Option.some.inj same) _) (alone same)
  | group opener body closer bodyAccounts =>
      obtain ⟨opening, inside, closing⟩ := anchors_enclosed anchors
      have accounts :=
        (bodyAccounts kinded.2.1 inside).around (alone opening) (alone closing)
      exact accounts.whole fun counts bears =>
        (bears_separated bears).around (spared opening) (spared closing)
  | collection opener members closer =>
      obtain ⟨opening, inside, closing⟩ := anchors_enclosed anchors
      have literals : ∀ member ∈ members, member ≠ token := fun member among =>
        ne_of_unplaced inside (List.mem_map_of_mem among)
      have inner : Trace.Spares (members.flatMap (Token.trace style)) token := by
        intro glyph among
        obtain ⟨member, early, late⟩ := List.mem_flatMap.1 among
        exact spared (literals member early) glyph late
      have absent : token ∉ members := fun among => literals token among rfl
      apply accounts_spared
      · exact spares_append.2 ⟨spares_append.2 ⟨spared opening, inner⟩, spared closing⟩
      · simp [tokens, opening.symm, closing.symm, absent]
  | optional opener pieces closer piecesAccounts =>
      obtain ⟨opens, core, _⟩ := kinded
      obtain ⟨opening, inside, closing⟩ := anchors_enclosed anchors
      exact (piecesAccounts core inside).chain core.balanced opens opening closing
  | bare atom atomAccounts => exact atomAccounts kinded anchors
  | quantified atom quantifier atomAccounts =>
      obtain ⟨inside, last⟩ := List.forall_mem_append.1 anchors
      have behind := ne_of_unplaced last (.head _)
      have accounts := (atomAccounts kinded.1 inside).around List.not_mem_nil (alone behind)
      exact accounts.whole fun counts bears =>
        (bears_flatten bears).around (List.forall_mem_nil _) (spared behind)
  | asserted piece assertion pieceAccounts =>
      obtain ⟨inside, last⟩ := List.forall_mem_append.1 anchors
      have behind := ne_of_unplaced last (.head _)
      have accounts := (pieceAccounts kinded.1 inside).around List.not_mem_nil (alone behind)
      -- The text of the assertion is written before the piece, and only its end behind it.
      exact accounts.whole fun counts bears =>
        (bears_flatten bears).around (spared behind) (spares_glue ")")
  | empty => exact accounts_nil List.not_mem_nil
  | snoc pieces piece piecesAccounts pieceAccounts =>
      obtain ⟨front, back⟩ := List.forall_mem_append.1 anchors
      exact (piecesAccounts kinded.1 front).append (pieceAccounts kinded.2 back)
  | operand concat concatAccounts =>
      exact (concatAccounts kinded anchors).whole fun counts => bears_flatten
  | both operands separator concat operandsAccounts concatAccounts =>
      obtain ⟨front, rest⟩ := List.forall_mem_append.1 anchors
      have back := (List.forall_mem_cons.1 rest).2
      have between : Accounts token (anchorText style token place) [] [separator] :=
        accounts_nil (alone (ne_of_unplaced rest (.head _)))
      have last := (concatAccounts kinded.2.2 back).whole fun counts => bears_flatten
      exact (operandsAccounts kinded.1 front).append (between.append last)
  | single branch branchAccounts =>
      exact (branchAccounts kinded anchors).whole fun counts => bears_conjunction
  | either alternatives separator branch alternativesAccounts branchAccounts =>
      obtain ⟨front, rest⟩ := List.forall_mem_append.1 anchors
      have back := (List.forall_mem_cons.1 rest).2
      have between : Accounts token (anchorText style token place) [] [separator] :=
        accounts_nil (alone (ne_of_unplaced rest (.head _)))
      have last := (branchAccounts kinded.2.2 back).whole fun counts => bears_conjunction
      exact (alternativesAccounts kinded.1 front).append (between.append last)

end Tree

/-! ### Whole patterns -/

/-- No token of a pattern is there twice, since each has an offset of its own. -/
theorem Scan.nodup_ofPattern (level : Magicness) (pattern : String) :
    (ofPattern level pattern).tokens.Nodup := by
  apply (pairwise_position_ofPattern level pattern).imp
  rintro earlier later before rfl
  exact absurd before (Nat.lt_irrefl _)

/-- Of elements that are all different each stands in one place. -/
theorem not_mem_of_nodup {α : Type} {front back : List α} {element : α}
    (nodup : (front ++ element :: back).Nodup) : element ∉ front ∧ element ∉ back := by
  have elsewhere := (List.nodup_cons.1 (List.nodup_middle.1 nodup)).1
  exact ⟨fun among => elsewhere (List.mem_append_left _ among), fun among =>
    elsewhere (List.mem_append_right _ among)⟩

/-- What accounts for tokens that are all different has one copy for the token, unless the token
is sheltered. -/
theorem Trace.Accounts.contributes {token : Token} {text : String} {trace : Trace}
    {before others : List Token}
    (accounts : Accounts token text [trace] (before ++ token :: others))
    (nodup : (before ++ token :: others).Nodup) : trace.Contributes before token text := by
  obtain ⟨_, bears, least, exactly⟩ := accounts
  obtain ⟨times, _, copies, ⟨⟩, rfl⟩ := List.forall₂_cons_right_iff.1 bears
  rw [List.sum_singleton, List.count_eq_one_of_mem nodup (by simp)] at least exactly
  refine ⟨times, copies, least, ?_⟩
  intro outside
  apply exactly.resolve_right
  rintro ⟨front, back, split, opens⟩
  obtain ⟨early, late⟩ := not_mem_of_nodup nodup
  obtain ⟨rfl, _⟩ := (List.append_cons_inj_of_notMem early late).1 split
  obtain ⟨opener, among, optional⟩ := opens []
  exact outside opener among optional

/-- What an anchor leaves at a place is a matter of the options. -/
theorem Tree.anchorText_congr {token : Token}
    (kind : token.kind = .caret ∨ token.kind = .dollar) {first second : Style}
    (same : first.options = second.options) (place : Place) :
    anchorText first token place = anchorText second token place := by
  have text : token.text first = token.text second := by
    rcases kind with kind | kind
    · have lexeme : token.lexeme = .caret := Lexeme.eq_of_kind kind (by simp)
      rw [Token.text, Token.text, lexeme, same]
    · have lexeme : token.lexeme = .dollar := Lexeme.eq_of_kind kind (by simp)
      rw [Token.text, Token.text, lexeme, same]
  cases place <;> simp only [anchorText, text]

/-- To the text that a pattern is converted to an anchor contributes what its place in the tree
calls for. -/
theorem Trace.contributes_ofPattern {options : Options} {pattern : String} {grown : Grown}
    (complete : Tree.ofScan (Scan.ofPattern options.magicness pattern) = .ok grown)
    {front back : List Placed} {token : Token} {place : Place}
    (placed : grown.tree.placed = front ++ (token, some place) :: back)
    (tokens : (Scan.ofPattern options.magicness pattern).tokens =
      front.map Prod.fst ++ token :: back.map Prod.fst)
    (kind : token.kind = .caret ∨ token.kind = .dollar) {style : Style}
    (same : style.options = options) :
    (Trace.ofPattern options pattern).Contributes (front.map Prod.fst) token
      (Tree.anchorText style token place) := by
  have nonempty : pattern.isEmpty = false := by
    rw [Bool.eq_false_iff]
    intro empty
    obtain rfl : pattern = "" := by simpa using empty
    exact List.append_ne_nil_of_right_ne_nil _ (List.cons_ne_nil _ _) tokens.symm
  have nodup := Scan.nodup_ofPattern options.magicness pattern
  rw [tokens] at nodup
  obtain ⟨early, late⟩ := not_mem_of_nodup nodup
  have anchors : grown.tree.Anchors token place := by
    rw [Tree.Anchors, placed]
    intro entry member same
    subst same
    rcases List.mem_append.1 member with among | among
    · exact absurd (List.mem_map_of_mem among) early
    · rcases List.mem_cons.1 among with first | among
      · rw [first]
      · exact absurd (List.mem_map_of_mem among) late
  let own := grown.style options (foldsCase options pattern)
  have accounts : Accounts token (Tree.anchorText own token place)
      [Trace.ofPattern options pattern] grown.tree.tokens := by
    rw [ofPattern_eq nonempty complete]
    exact ((Tree.kinded_ofScan complete).accounts anchors).whole fun counts bears =>
      (bears_separated bears).withCase _
  rw [Tree.tokens_ofScan complete, tokens] at accounts
  have text : Tree.anchorText style token place = Tree.anchorText own token place :=
    Tree.anchorText_congr kind same place
  rw [text]
  exact accounts.contributes nodup

end VimPattern
