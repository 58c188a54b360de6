/-
Module: VimPattern.Proofs.Spelling.Listing
Purpose: Collections of characters and ranges, as they are written, read and rendered.
Main exports:
  Collection.isPlain, Listed.text, Listed.MayFollow, Collection.divide,
  Scan.passes_divided, Collection.Listing, Collection.Listing.contains,
  Collection.Listing.spelling, Collection.Listing.expression,
  Collection.Listing.passes, Collection.Listing.convert_eq
-/
import Mathlib.Data.List.Chain
import VimPattern.Proofs.Spelling.Translation
import VimPattern.Proofs.Target.Brackets

namespace VimPattern

/-!
A listing is what a collection says that holds only characters and ranges, with a closing
bracket or a dash in first place at most.  The reading pairs the dashes of its text from the
left and knows nothing of ranges, so that the text is followed here as a row of characters;
what the ranges are is asked where the result is compared with the listing.
-/

/-! ### Items -/

/-- A character that has no meaning of its own in a collection. -/
def Collection.isPlain (char : Char) : Bool :=
  ' ' ≤ char && char ∉ [']', '[', '\\', '^', '-']

theorem Collection.space_le_of_isPlain {char : Char} (plain : isPlain char) : ' ' ≤ char := by
  rw [isPlain, Bool.and_eq_true, decide_eq_true_eq] at plain
  exact plain.1

namespace Listed

/-- The character that an item begins with. -/
def low : Listed → Char
  | .single char => char
  | .range low _ => low

def isRange : Listed → Bool
  | .single _ => false
  | .range _ _ => true

/-- An item as a collection writes it. -/
def text : Listed → List Char
  | .single char => [char]
  | .range low high => [low, '-', high]

/-- What stands behind the first character. -/
def tail : Listed → List Char
  | .single _ => []
  | .range _ high => ['-', high]

theorem text_eq (item : Listed) : item.text = item.low :: item.tail := by
  cases item <;> rfl

/-- A range ends with a plain character or a dash that does not come before its start. -/
def Ends : Listed → Prop
  | .single _ => True
  | .range low high => low ≤ high ∧ (Collection.isPlain high ∨ high = '-')

instance : DecidablePred Ends
  | .single _ => isTrue trivial
  | .range low high =>
      inferInstanceAs (Decidable (low ≤ high ∧ (Collection.isPlain high ∨ high = '-')))

/-- What may stand right behind an item.  A dash starts a range only behind another one, since
it makes one with the character before it otherwise. -/
def MayFollow (before item : Listed) : Prop :=
  Collection.isPlain item.low ∨ (item.low = '-' ∧ item.isRange ∧ before.isRange)

instance : DecidableRel MayFollow := fun before item =>
  inferInstanceAs
    (Decidable
      (Collection.isPlain item.low ∨ (item.low = '-' ∧ item.isRange ∧ before.isRange)))

end Listed

namespace Collection

/-- The characters that only begin something of several characters, or end the collection. -/
def isSpecial (char : Char) : Bool :=
  char ∈ [']', '[', '\\']

/-- Plain characters and dashes are no special ones. -/
theorem not_isSpecial {char : Char} (ordinary : isPlain char ∨ char = '-') :
    ¬isSpecial char := by
  rcases ordinary with plain | rfl
  · intro special
    simp only [isSpecial, isPlain, List.mem_cons, List.not_mem_nil, Bool.and_eq_true,
      decide_eq_true_eq] at special plain
    tauto
  · decide

/-- The members that the text of a collection is divided into. -/
def divide : List Char → List Member
  | [] => []
  | '-' :: '-' :: text => .dashPair :: divide text
  | char :: text => .plain char :: divide text

/-- The target text of these members. -/
def written : List Char → List Char
  | [] => []
  | '-' :: '-' :: text => ['-', '\\', '-'] ++ written text
  | char :: text => (Escape.member char).toList ++ written text

/-- The elements that the target reads there. -/
def elements : List Char → List Element
  | [] => []
  | '-' :: '-' :: text => .dash :: .other '-' :: elements text
  | char :: text => .ofChar char :: elements text

/-- The text of a member is all that its token adds. -/
theorem text_of_member (style : Style) {token : Token} {member : Member}
    (same : token.lexeme = .member member) : token.text style = member.text style := by
  rw [Token.text, same]

theorem textOf_divide (style : Style) (text : List Char) {tokens : List Token}
    (lexemes : tokens.map Token.lexeme = (divide text).map .member) :
    Token.textOf style tokens = String.ofList (written text) := by
  fun_induction divide text generalizing tokens with
  | case1 =>
      obtain rfl : tokens = [] := List.map_eq_nil_iff.1 lexemes
      rfl
  | case2 text inductionHypothesis =>
      rw [List.map_cons] at lexemes
      obtain ⟨token, others, rfl, same, lexemes⟩ := List.map_eq_cons_iff.1 lexemes
      rw [Token.textOf_cons, text_of_member style same, inductionHypothesis lexemes, written,
        String.ofList_append]
      rfl
  | case3 char text single inductionHypothesis =>
      rw [List.map_cons] at lexemes
      obtain ⟨token, others, rfl, same, lexemes⟩ := List.map_eq_cons_iff.1 lexemes
      rw [Token.textOf_cons, text_of_member style same, inductionHypothesis lexemes, written,
        String.ofList_append, String.ofList_toList]
      · rfl
      · exact single

/-- What is written begins with a backslash or with the first character of the text. -/
theorem head?_written {text : List Char} {first : Char}
    (head : (written text).head? = some first) : first = '\\' ∨ text.head? = some first := by
  unfold written at head
  split at head
  · cases head
  · exact .inr head
  · next char others _ =>
      unfold Escape.member at head
      split at head
      · left
        simpa [Escape.afterBackslash] using head.symm
      · right
        simpa [String.toList_singleton] using head

/-- A bare member that is no dash is written so that it is one wherever it stands. -/
theorem spells_member {char : Char} (ordinary : ¬isSpecial char) (differs : char ≠ '-') :
    Target.Spells (Escape.member char).toList [.other char] := by
  unfold Escape.member
  split
  · next among =>
      have punctuation :
          ['[', '&', '~'].all fun char => Target.escaped? char = some char := by
        rfl
      rw [Escape.afterBackslash, String.toList_ofList]
      apply Target.spells_escaped
      simpa using List.all_eq_true.1 punctuation char among
  · next free =>
      rw [String.toList_singleton]
      apply Target.spells_bare
      simp only [isSpecial, List.mem_cons, List.not_mem_nil, or_false, not_or,
        decide_eq_true_eq] at ordinary free ⊢
      exact ⟨ordinary.1, ordinary.2.2, differs, free⟩

/-- The target reads the elements of the text up to the end of the bracket expression. -/
theorem elements?_written {text : List Char} (ordinary : ∀ char ∈ text, ¬isSpecial char)
    (rest : List Char) :
    Target.elements? (written text ++ ']' :: rest) = some (elements text, rest) := by
  fun_induction elements text with
  | case1 => rfl
  | case2 text inductionHypothesis =>
      have later := inductionHypothesis fun char among => ordinary char (by simp [among])
      have escaped : Target.Spells ['\\', '-'] [.other '-'] := Target.spells_escaped rfl
      have read := escaped (written text ++ ']' :: rest)
      rw [later] at read
      rw [written, List.append_assoc, List.cons_append, Target.elements?_dash (by simp), read]
      rfl
  | case3 char text single inductionHypothesis =>
      have later := inductionHypothesis fun other among => ordinary other (by simp [among])
      rw [written]
      · by_cases dash : char = '-'
        · subst dash
          have next : text.head? ≠ some '-' := by
            intro head
            obtain ⟨others, rfl⟩ := List.head?_eq_some_iff.1 head
            exact single others rfl rfl
          have apart : (written text ++ ']' :: rest).head? ≠ some '-' := by
            rw [List.head?_append]
            cases head : (written text).head? with
            | none => simp
            | some first =>
                rintro ⟨rfl⟩
                exact next ((head?_written head).resolve_left (by decide))
          change Target.elements? ('-' :: (written text ++ ']' :: rest)) = _
          rw [Target.elements?_dash apart, later]
          rfl
        · have spells := spells_member (ordinary char (.head _)) dash
          rw [List.append_assoc, spells, later, Element.ofChar_of_ne dash]
          rfl
      · exact single

/-- Before the end of a collection there is no other dash behind a single one. -/
theorem head?_append_close {char : Char} {text : List Char}
    (single : ∀ others, char = '-' → text = '-' :: others → False) (dash : char = '-')
    (rest : List Char) : (text ++ ']' :: rest).head? ≠ some '-' := by
  cases text with
  | nil => simp
  | cons first others =>
      rintro ⟨rfl⟩
      exact single others dash rfl

end Collection

/-! ### Reading -/

namespace Scan

/-- The text of a collection is passed over as the members that it is divided into. -/
theorem passes_divided {text : List Char}
    (ordinary : ∀ char ∈ text, ¬Collection.isSpecial char) {context : Context}
    {withBreak : Bool} (inside : context.collection? = some withBreak) (position : Nat)
    (rest : List Char) :
    ∃ members after place,
      members.map Token.lexeme = (Collection.divide text).map .member ∧
        Passes context position (text ++ ']' :: rest) members after place (']' :: rest) ∧
          after.Continues context := by
  fun_induction Collection.divide text generalizing context position with
  | case1 => exact ⟨[], context, position, rfl, .nothing _ _ _, .refl context⟩
  | case2 text inductionHypothesis =>
      have verdict :
          Verdict.inCollection withBreak '-' ('-' :: (text ++ ']' :: rest)) =
            .member .dashPair 1 := by
        rfl
      obtain ⟨token, halfway, same, first, continues⟩ := passes_member inside verdict position
      obtain ⟨members, after, place, lexemes, others, later⟩ :=
        inductionHypothesis (fun char among => ordinary char (by simp [among]))
          (continues.collection?.trans inside) halfway
      refine ⟨token :: members, after, place, ?_, first.append others, later.trans continues⟩
      rw [List.map_cons, List.map_cons, same, lexemes]
  | case3 char text single inductionHypothesis =>
      have verdict :
          Verdict.inCollection withBreak char (text ++ ']' :: rest) =
            .member (.plain char) 0 := by
        have special := ordinary char (.head _)
        unfold Verdict.inCollection
        split
        · cases special rfl
        · cases special rfl
        · cases special rfl
        · have apart := Collection.head?_append_close single rfl rest
          rw [if_neg (by simpa using apart)]
        · rfl
      obtain ⟨token, halfway, same, first, continues⟩ := passes_member inside verdict position
      obtain ⟨members, after, place, lexemes, others, later⟩ :=
        inductionHypothesis (fun char among => ordinary char (by simp [among]))
          (continues.collection?.trans inside) halfway
      refine ⟨token :: members, after, place, ?_, first.append others, later.trans continues⟩
      rw [List.map_cons, List.map_cons, same, lexemes]

end Scan

/-! ### Listings -/

namespace Collection

/-- The items of a collection that lists characters and ranges. -/
structure Listing where
  /-- The collection accepts what it does not list. -/
  negated : Bool
  first : Listed
  others : List Listed
  /-- Only in first place a closing bracket or a single dash may stand. -/
  begins : isPlain first.low ∨ first.low = ']' ∨ first.low = '-'
  ends : ∀ item ∈ first :: others, item.Ends
  joined : List.IsChain Listed.MayFollow (first :: others)

namespace Listing

def items (listing : Listing) : List Listed :=
  listing.first :: listing.others

theorem ends_items (listing : Listing) : ∀ item ∈ listing.items, item.Ends :=
  listing.ends

theorem joined_items (listing : Listing) : List.IsChain Listed.MayFollow listing.items :=
  listing.joined

/-- The character is accepted.  A negated collection never accepts a line break. -/
def contains (listing : Listing) (char : Char) : Bool :=
  if listing.negated then !Listed.covered listing.items char && char ∉ ['\r', '\n']
  else Listed.covered listing.items char

/-- The text between the opening and the closing bracket. -/
def inner (listing : Listing) : List Char :=
  (if listing.negated then ['^'] else []) ++ listing.items.flatMap Listed.text

/-- The whole collection, written for a level. -/
def spelling (listing : Listing) (level : Magicness) : List Char :=
  Operator.collection.spelling level ++ (listing.inner ++ [']'])

/-- How the collection opens. -/
def opening (listing : Listing) : Opening where
  negated := listing.negated
  leadingBracket := listing.first.low == ']'

/-- The text behind the opening. -/
def body (listing : Listing) : List Char :=
  (if listing.first.low = ']' then listing.first.tail else listing.first.text) ++
    listing.others.flatMap Listed.text

/-- The bracket expression that the collection is rendered as. -/
def expression (listing : Listing) : String :=
  listing.opening.text "" ++ String.ofList (written listing.body) ++ closingText false

/-- Behind the first item there are plain characters and dashes only. -/
theorem low_of_isChain {first : Listed} {others : List Listed}
    (joined : List.IsChain Listed.MayFollow (first :: others)) :
    ∀ item ∈ others, isPlain item.low ∨ item.low = '-' := by
  induction others generalizing first with
  | nil => simp
  | cons next others inductionHypothesis =>
      rw [List.isChain_cons_cons] at joined
      obtain ⟨follows, joined⟩ := joined
      rintro item (_ | ⟨_, among⟩)
      · exact follows.imp id And.left
      · exact inductionHypothesis joined item among

/-- There are only plain characters and dashes in the body. -/
theorem plain_of_mem_body (listing : Listing) :
    ∀ char ∈ listing.body, isPlain char ∨ char = '-' := by
  have tails (item : Listed) (ends : item.Ends) :
      ∀ char ∈ item.tail, isPlain char ∨ char = '-' := by
    cases item with
    | single => simp [Listed.tail]
    | range low high =>
        simp only [Listed.tail, List.mem_cons, List.not_mem_nil, or_false]
        rintro char (rfl | rfl)
        · exact .inr rfl
        · exact ends.2
  have texts (item : Listed) (begins : isPlain item.low ∨ item.low = '-') (ends : item.Ends) :
      ∀ char ∈ item.text, isPlain char ∨ char = '-' := by
    rw [Listed.text_eq]
    rintro char (_ | ⟨_, among⟩)
    · exact begins
    · exact tails item ends char among
  intro char among
  rw [body, List.mem_append, List.mem_flatMap] at among
  rcases among with among | ⟨item, member, among⟩
  · have ends := listing.ends listing.first (.head _)
    split at among
    · exact tails _ ends char among
    · next differs =>
        exact texts _ (listing.begins.imp_right fun low => low.resolve_left differs) ends char
          among
  · exact texts item (low_of_isChain listing.joined item member)
      (listing.ends item (.tail _ member)) char among

/-- There is nothing in the body that does more than stand for itself. -/
theorem ordinary_body (listing : Listing) : ∀ char ∈ listing.body, ¬isSpecial char :=
  fun char among => not_isSpecial (listing.plain_of_mem_body char among)

/-- The body is what stands behind a caret and a closing bracket. -/
theorem inner_eq (listing : Listing) :
    listing.inner =
      (if listing.negated then ['^'] else []) ++
        ((if listing.first.low = ']' then [']'] else []) ++ listing.body) := by
  rw [inner, items, body, List.flatMap_cons, Listed.text_eq]
  by_cases bracket : listing.first.low = ']' <;> simp [bracket]

/-- No collection lists a caret first. -/
theorem low_ne_caret (listing : Listing) : listing.first.low ≠ '^' := by
  rintro same
  rcases listing.begins with begins | begins | begins <;> rw [same] at begins <;> cases begins

/-- The opening takes a caret and a closing bracket, and leaves the body. -/
theorem readOpening_inner (listing : Listing) (rest : List Char) :
    ∃ taken,
      readOpening false (listing.inner ++ ']' :: rest) = (listing.opening, taken) ∧
        (listing.inner ++ ']' :: rest).drop taken = listing.body ++ ']' :: rest := by
  have caret := listing.low_ne_caret
  unfold readOpening inner items opening body
  rw [List.flatMap_cons, Listed.text_eq]
  cases listing.negated <;> by_cases bracket : listing.first.low = ']' <;>
    simp [caret, bracket]

/-- Wherever it is written outside collections, it is read as a collection of its members. -/
theorem passes (listing : Listing) {context : Context} (outside : context.collection? = none)
    (position : Nat) (rest : List Char) :
    ∃ opener members closer after place,
      Scan.Passes context position (listing.spelling context.magicness ++ rest)
          (opener :: (members ++ [closer])) after place rest ∧
        after.Continues context ∧ opener.lexeme = .collectionOpen listing.opening ∧
          members.map Token.lexeme = (divide listing.body).map .member ∧
            closer.lexeme = .collectionClose false := by
  obtain ⟨taken, reads, left⟩ := listing.readOpening_inner rest
  have read (written : Bool) :
      Operator.collection.read? context written (listing.inner ++ ']' :: rest) =
        some (.lexeme (.collectionOpen listing.opening), taken) := by
    simp only [Operator.read?, reads]
  obtain ⟨opener, begins, opens, start⟩ := Scan.passes_operator outside read position
  rw [left] at start
  have inside : (context.afterToken opener).collection? = some false := by
    rw [Context.collection?, Context.afterToken, opens]
    rfl
  obtain ⟨members, middle, halfway, lexemes, between, within⟩ :=
    Scan.passes_divided listing.ordinary_body inside begins rest
  obtain ⟨closer, place, closes, last⟩ :=
    Scan.passes_collectionClose (within.collection?.trans inside) halfway rest
  refine
    ⟨opener, members, closer, middle.afterToken closer, place, ?_,
      Context.continues_afterToken_of_closed opens closes rfl rfl rfl rfl within, opens,
      lexemes, closes⟩
  rw [spelling, List.append_assoc, List.append_assoc]
  exact start.append (between.append last)

/-- The text of a collection that has been read so. -/
theorem text_eq (listing : Listing) {opener closer : Token} {members : List Token}
    (opens : opener.lexeme = .collectionOpen listing.opening)
    (lexemes : members.map Token.lexeme = (divide listing.body).map .member)
    (closes : closer.lexeme = .collectionClose false) (style : Style) :
    (Tree.collection opener members closer).text style = listing.expression := by
  have opening : opener.text style = listing.opening.text "" := by
    rw [Token.text, opens]
    rfl
  have closing : closer.text style = closingText false := by
    rw [Token.text, closes]
  rw [Tree.text_collection, opening, textOf_divide style _ lexemes, closing, expression]

/-- No collection of a listing says anything about case. -/
theorem unmarked_spelling (listing : Listing) (level : Magicness) :
    Sketch.Unmarked (listing.spelling level) := by
  have opening : Sketch.Unmarked (Operator.collection.spelling level) := by
    rw [← Operator.older_eq .collection level (by decide)]
    exact Sketch.unmarked_older level rfl
  refine opening.append (Sketch.unmarked_of_forall ?_)
  rintro char among rfl
  have body : '\\' ∉ listing.body := fun inside => listing.ordinary_body _ inside rfl
  rw [inner_eq] at among
  simp [body] at among

/-- The spelling holds no mark that switches case. -/
theorem foldsCase_spelling (listing : Listing) (options : Options) :
    foldsCase options (String.ofList (listing.spelling options.magicness)) =
      options.ignoreCase := by
  have unmarked := listing.unmarked_spelling options.magicness []
  rw [List.append_nil] at unmarked
  rw [foldsCase, String.toList_ofList, unmarked]
  rfl

/-- A pattern that is a collection and nothing else grows a tree whose text is the bracket
expression. -/
theorem exists_ofScan_eq (listing : Listing) (level : Magicness) :
    ∃ grown,
      Tree.ofScan (Scan.ofPattern level (String.ofList (listing.spelling level))) =
          .ok grown ∧
        ∀ style, grown.tree.text style = listing.expression := by
  have outside : (Context.start level).collection? = none := rfl
  obtain ⟨opener, members, closer, after, place, passes, continues, opens, lexemes, closes⟩ :=
    listing.passes outside 0 []
  have here : (Context.start level).magicness = level := rfl
  rw [here, List.append_nil] at passes
  obtain ⟨tokens, whole⟩ := passes.ofPattern continues.enclosing
  have literals : ∀ token ∈ members, token.kind = .literal := by
    intro token among
    have lexeme := List.mem_map_of_mem (f := Token.lexeme) among
    rw [lexemes] at lexeme
    obtain ⟨member, _, same⟩ := List.mem_map.1 lexeme
    rw [Token.kind, ← same]
    rfl
  have opened : opener.kind = .collectionOpen := by
    rw [Token.kind, opens]
    rfl
  have closed : closer.kind = .collectionClose := by
    rw [Token.kind, closes]
    rfl
  have taken :=
    Growth.takes_collection ([] : List Token).head? (rfl : ({} : Growth).collection = none)
      opened literals closed
  have ran :
      Growth.run (.ok { position := place, context := after }) {} 0
          (opener :: (members ++ [closer]) ++ []) = _ :=
    taken.run 0
  rw [List.append_nil] at ran
  let grown : Grown :=
    { tree := .single (.operand (.snoc .empty (.bare (.collection opener members closer))))
      dollarEnds := false
      context := after }
  refine ⟨grown, ?_, fun style => ?_⟩
  · rw [Tree.ofScan, whole, tokens, ran]
    rfl
  · rw [Tree.text_single, Tree.text_operand, Tree.text_snoc, Tree.text_empty, Tree.text_bare,
      listing.text_eq opens lexemes closes, String.empty_append]

/-- A pattern that is a collection and nothing else is converted to its bracket
expression. -/
theorem convert_eq (listing : Listing) (options : Options) :
    ∃ conversion,
      convert options (String.ofList (listing.spelling options.magicness)) =
          .ok conversion ∧
        conversion.converted = withCase options.ignoreCase listing.expression := by
  obtain ⟨grown, complete, expression⟩ := listing.exists_ofScan_eq options.magicness
  have nonempty : ¬(String.ofList (listing.spelling options.magicness)).isEmpty := by
    simp [spelling]
  refine ⟨Conversion.ofGrown options options.ignoreCase grown, ?_, ?_⟩
  · rw [convert, if_neg nonempty]
    simp only [listing.foldsCase_spelling, complete]
  · rw [Conversion.ofGrown, expression]

end Listing

end Collection

end VimPattern
