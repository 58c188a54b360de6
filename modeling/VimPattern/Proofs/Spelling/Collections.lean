/-
Module: VimPattern.Proofs.Spelling.Collections
Purpose: Which collections mean the same in the target.
Main exports:
  Collection.Listing.rendered, Collection.Listing.bracket?_expression,
  Collection.Listing.Displaced, Collection.Listing.Kept,
  Collection.Listing.exists_charSet?_iff, Collection.Listing.bracket?_agrees_iff
-/
import VimPattern.Proofs.Spelling.Ranges

namespace VimPattern

/-!
The bracket expression of a collection lists what the items are taken for, and the line breaks
of a negated collection besides.  These come right behind the opening, so that a dash that the
collection has in first place, or behind a closing bracket, makes a range from a line break on.
Where that does not happen and no range from a dash falls apart, the two sets are the same.
-/

namespace Collection.Listing

/-- What is rendered before the body is. -/
def front (listing : Listing) : List Char :=
  (if listing.first.low = ']' then ['\\', ']'] else []) ++
    if listing.negated then ['\\', 'r', '\\', 'n'] else []

/-- The elements of the bracket expression. -/
def rendered (listing : Listing) : List Element :=
  (if listing.first.low = ']' then [.other ']'] else []) ++
    (if listing.negated then [.other '\r', .other '\n'] else []) ++ elements listing.body

theorem toList_expression (listing : Listing) (rest : List Char) :
    listing.expression.toList ++ rest =
      '[' ::
        ((if listing.negated then ['^'] else []) ++
          (listing.front ++ (written listing.body ++ ']' :: rest))) := by
  rw [expression, String.toList_append, String.toList_append, String.toList_ofList,
    Opening.text, opening, front]
  by_cases bracket : listing.first.low = ']' <;> cases listing.negated <;>
    simp [bracket, closingText]

/-- The front is read as the bracket and the line breaks. -/
theorem spells_front (listing : Listing) :
    Target.Spells listing.front
      ((if listing.first.low = ']' then [.other ']'] else []) ++
        if listing.negated then [.other '\r', .other '\n'] else []) := by
  have bracket : Target.Spells ['\\', ']'] [.other ']'] := Target.spells_escaped rfl
  have breaks : Target.Spells ['\\', 'r', '\\', 'n'] [.other '\r', .other '\n'] :=
    (Target.spells_escaped rfl).append (Target.spells_escaped rfl)
  unfold front
  apply Target.Spells.append
  · split
    · exact bracket
    · exact Target.spells_nil
  · split
    · exact breaks
    · exact Target.spells_nil

/-- A collection that is not negated is not rendered as one that is. -/
theorem head?_ne_caret (listing : Listing) (accepts : listing.negated = false)
    (rest : List Char) :
    (listing.front ++ (written listing.body ++ ']' :: rest)).head? ≠ some '^' := by
  rw [front, accepts]
  by_cases bracket : listing.first.low = ']'
  · simp [bracket]
  · have text : listing.body.head? = some listing.first.low := by
      rw [body, if_neg bracket, Listed.text_eq]
      rfl
    simp only [bracket, if_false, Bool.false_eq_true, List.nil_append, List.head?_append]
    cases head : (written listing.body).head? with
    | none => simp
    | some first =>
        rintro ⟨rfl⟩
        have caret := (head?_written head).resolve_left (by decide)
        rw [text] at caret
        injection caret with caret
        exact listing.low_ne_caret caret

/-- The bracket expression is read as its elements, whatever stands behind it. -/
theorem bracket?_expression (listing : Listing) (rest : List Char) :
    Target.bracket? (listing.expression.toList ++ rest) =
      (Target.charSet? listing.negated listing.rendered).map (·, rest) := by
  have read :
      Target.elements? (listing.front ++ (written listing.body ++ ']' :: rest)) =
        some (listing.rendered, rest) := by
    rw [listing.spells_front, elements?_written listing.ordinary_body]
    rfl
  rw [toList_expression]
  apply Target.bracket?_eq read
  cases accepts : listing.negated with
  | true => exact .inl rfl
  | false => exact .inr (listing.head?_ne_caret accepts rest)

/-- Behind the line breaks that are rendered first comes a dash, and something behind it. -/
def Displaced (listing : Listing) : Prop :=
  listing.negated = true ∧ listing.body.head? = some '-' ∧ listing.body ≠ ['-']

/-- Without a bracket in front the body is the text of the items. -/
theorem body_eq {listing : Listing} (bracket : listing.first.low ≠ ']') :
    listing.body = listing.items.flatMap Listed.text := by
  rw [body, if_neg bracket, items, List.flatMap_cons]

section

open Element

variable {listing : Listing} (regular : .range '-' '-' ∉ listing.items.dropLast)
include regular

/-- The text of the items is rendered item by item. -/
theorem elements_items :
    elements (listing.items.flatMap Listed.text) = listing.items.flatMap Listed.elements :=
  elements_flatMap listing.joined_items regular

/-- A collection that is not negated is rendered item by item. -/
theorem rendered_eq (accepts : listing.negated = false) :
    listing.rendered = listing.items.flatMap Listed.elements := by
  rw [← elements_items regular, rendered, accepts]
  by_cases bracket : listing.first.low = ']'
  · have single : elements (']' :: listing.body) = .other ']' :: elements listing.body :=
      elements_cons fun same => absurd same (by decide)
    have text : listing.items.flatMap Listed.text = ']' :: listing.body := by
      rw [items, body, if_pos bracket, List.flatMap_cons, Listed.text_eq, bracket]
      rfl
    rw [text, single, if_pos bracket]
    rfl
  · rw [body_eq bracket, if_neg bracket]
    rfl

/-- A bracket stands before the line breaks, and a range from it would be displaced. -/
theorem exists_others_of_bracket (negated : listing.negated = true)
    (placed : ¬listing.Displaced) (bracket : listing.first.low = ']') :
    ∃ others, others.head? ≠ some .dash ∧
      listing.rendered = .other ']' :: .other '\r' :: .other '\n' :: others ∧
        listing.items.flatMap Listed.elements = .other ']' :: others := by
  rcases listing with ⟨_, _ | ⟨low, high⟩, others, begins, ends, joined⟩
  · obtain rfl : _ = ']' := bracket
    obtain rfl : _ = true := negated
    refine ⟨others.flatMap Listed.elements, ?_, ?_, rfl⟩
    · exact Listed.head?_elements_ne joined (fun _ _ => by rintro ⟨⟩) (.inl rfl)
    · have later : elements (others.flatMap Listed.text) = others.flatMap Listed.elements :=
        elements_flatMap joined.tail (Listed.regular_cons regular).2
      rw [← later]
      rfl
  · obtain rfl : low = ']' := bracket
    exact absurd ⟨negated, rfl, by simp [body, Listed.low, Listed.tail]⟩ placed

/-- Without a bracket in front the line breaks come first. -/
theorem listed?_break (negated : listing.negated = true) (placed : ¬listing.Displaced)
    (bracket : listing.first.low ≠ ']') :
    listed? (.other '\n' :: listing.items.flatMap Listed.elements) =
      (listed? (listing.items.flatMap Listed.elements)).map (.single '\n' :: ·) := by
  by_cases dash : listing.body.head? = some '-'
  · -- Nothing but the dash is listed, and in last place it is itself.
    have single : listing.body = ['-'] := by
      by_contra others
      exact placed ⟨negated, dash, others⟩
    rw [← elements_items regular, ← body_eq bracket, single]
    rfl
  · apply listed?_cons
    rw [Listed.head?_flatMap_elements]
    rw [body_eq bracket, Listed.head?_flatMap_text] at dash
    have differs : listing.first.low ≠ '-' := by simpa [items] using dash
    simpa [items] using Listed.ofChar_low_ne differs

/-- The elements of the bracket expression are read like those of the items, with the line
breaks put in. -/
theorem exists_listed?_rendered (placed : ¬listing.Displaced) :
    ∃ insert : List Listed → List Listed,
      listed? listing.rendered =
          (listed? (listing.items.flatMap Listed.elements)).map insert ∧
        ∀ listed char,
          Listed.covered (insert listed) char =
            (Listed.covered listed char ||
              (listing.negated && char ∈ ['\r', '\n'])) := by
  cases negated : listing.negated with
  | false =>
      refine ⟨id, ?_, ?_⟩
      · rw [rendered_eq regular negated, Option.map_id, id]
      · simp
  | true =>
      by_cases bracket : listing.first.low = ']'
      · obtain ⟨others, single, rendered, elements⟩ :=
          exists_others_of_bracket regular negated placed bracket
        refine
          ⟨fun listed => listed.take 1 ++ .single '\r' :: .single '\n' :: listed.drop 1, ?_, ?_⟩
        · rw [rendered, elements, listed?_cons _ (by simp), listed?_cons _ (by simp),
            listed?_cons _ single, listed?_cons _ single, Option.map_map, Option.map_map,
            Option.map_map]
          rfl
        · intro listed char
          rw [Listed.covered_breaks, List.take_append_drop, Bool.true_and]
      · have rendered :
            listing.rendered =
              .other '\r' :: .other '\n' :: listing.items.flatMap Listed.elements := by
          rw [Listing.rendered, if_neg bracket, negated, body_eq bracket, elements_items regular]
          rfl
        refine ⟨fun listed => .single '\r' :: .single '\n' :: listed, ?_, ?_⟩
        · rw [rendered, listed?_cons _ (by simp),
            listed?_break regular negated placed bracket, Option.map_map]
          rfl
        · intro listed char
          rw [Bool.true_and]
          exact Listed.covered_breaks [] listed char

end

/-- Behind a displaced dash there is a character that comes after the control characters. -/
theorem exists_elements_of_displaced {listing : Listing} (displaced : listing.Displaced) :
    ∃ second others,
      elements listing.body = .dash :: second :: others ∧ ' ' ≤ second.char := by
  obtain ⟨-, dash, more⟩ := displaced
  have plain := listing.plain_of_mem_body
  obtain ⟨others, body⟩ := List.head?_eq_some_iff.1 dash
  rw [body] at more plain ⊢
  rcases others with _ | ⟨next, rest⟩
  · exact absurd rfl more
  · by_cases same : next = '-'
    · subst same
      exact ⟨.other '-', elements rest, by rw [elements], by decide⟩
    · refine ⟨.ofChar next, elements rest, ?_, ?_⟩
      · rw [elements_cons fun _ => by simpa using same,
          elements_cons fun dash => absurd dash same]
        rfl
      · rw [Element.char_ofChar]
        exact space_le_of_isPlain ((plain next (by simp)).resolve_right same)

/-- A displaced dash makes a range from a line break on, which holds a control character. -/
theorem covered_of_displaced {listing : Listing} (displaced : listing.Displaced)
    {listed : List Listed} (read : Element.listed? listing.rendered = some listed) :
    Listed.covered listed '\x0b' := by
  obtain ⟨second, others, elements, after⟩ := exists_elements_of_displaced displaced
  have ordered : (Element.other '\n').char ≤ second.char := Char.le_trans (by decide) after
  have breaks :
      Element.listed? (.other '\r' :: .other '\n' :: .dash :: second :: others) =
        (Element.listed? others).map (.single '\r' :: .range '\n' second.char :: ·) := by
    rw [Element.listed?_cons _ (by simp), Element.listed?_range ordered, Option.map_map]
    rfl
  have inside : .range '\n' second.char ∈ listed := by
    rw [rendered, displaced.1, elements] at read
    by_cases bracket : listing.first.low = ']'
    · rw [if_pos bracket] at read
      change
        Element.listed?
          (.other ']' :: .other '\r' :: .other '\n' :: .dash :: second :: others) = _ at read
      rw [Element.listed?_cons _ (by simp), breaks, Option.map_map] at read
      obtain ⟨rest, _, rfl⟩ := Option.map_eq_some_iff.1 read
      simp
    · rw [if_neg bracket] at read
      change
        Element.listed? (.other '\r' :: .other '\n' :: .dash :: second :: others) = _ at read
      rw [breaks] at read
      obtain ⟨rest, _, rfl⟩ := Option.map_eq_some_iff.1 read
      simp
  refine List.any_eq_true.2 ⟨_, inside, ?_⟩
  rw [Listed.covers, decide_eq_true (Char.le_trans (by decide) after)]
  rfl

/-- What it takes for a collection to mean the same in the target. -/
structure Kept (listing : Listing) : Prop where
  /-- No dash is displaced by the line breaks. -/
  placed : ¬listing.Displaced
  /-- No two ranges from a dash stand side by side. -/
  apart : List.IsChain Listed.Apart listing.items
  /-- What lies inside a range from a dash is listed once more. -/
  covered : ∀ char, Listed.covered listing.items char →
    Listed.covered (listing.items.flatMap Listed.received) char

/-- What a collection lists comes after the control characters. -/
theorem space_le_of_covered (listing : Listing) {char : Char}
    (covered : Listed.covered listing.items char) : ' ' ≤ char := by
  obtain ⟨item, among, covers⟩ := List.any_eq_true.1 covered
  have begins : ' ' ≤ item.low := by
    have low : isPlain item.low ∨ item.low = ']' ∨ item.low = '-' := by
      rcases List.mem_cons.1 among with rfl | among
      · exact listing.begins
      · exact (low_of_isChain listing.joined item among).imp_right .inr
    rcases low with plain | same | same
    · exact space_le_of_isPlain plain
    · rw [same]
      decide
    · rw [same]
      decide
  cases item with
  | single listed =>
      rw [Listed.covers, beq_iff_eq] at covers
      rwa [covers]
  | range low high =>
      simp only [Listed.covers, Bool.and_eq_true, decide_eq_true_eq] at covers
      exact Char.le_trans begins covers.1

/-- The target agrees about a character if what is inside a range is not lost. -/
theorem contains_eq_iff (listing : Listing) {listed : List Listed} {char : Char}
    (counts :
      Listed.covered listed char =
        (Listed.covered (listing.items.flatMap Listed.received) char ||
          (listing.negated && char ∈ ['\r', '\n']))) :
    ({ negated := listing.negated, listed := listed } : CharSet).contains char =
        listing.contains char ↔
      (Listed.covered listing.items char →
        Listed.covered (listing.items.flatMap Listed.received) char) := by
  have lists :
      Listed.covered (listing.items.flatMap Listed.received) char →
        Listed.covered listing.items char :=
    Listed.covered_of_received listing.ends_items
  have apart : Listed.covered listing.items char → char ∉ ['\r', '\n'] := by
    intro covered among
    have after := listing.space_le_of_covered covered
    simp only [List.mem_cons, List.not_mem_nil, or_false] at among
    rcases among with rfl | rfl <;> exact absurd after (by decide)
  rw [CharSet.contains, contains, counts]
  cases listing.negated <;> by_cases covered : Listed.covered listing.items char <;>
    by_cases received : Listed.covered (listing.items.flatMap Listed.received) char <;>
      simp_all

/-- Between the brackets the target reads the set that the collection means, exactly if the
collection is kept. -/
theorem exists_charSet?_iff {listing : Listing}
    (regular : .range '-' '-' ∉ listing.items.dropLast) :
    (∃ set, Target.charSet? listing.negated listing.rendered = some set ∧
        ∀ char, set.contains char = listing.contains char) ↔ listing.Kept := by
  have joined := listing.joined_items
  have ends := listing.ends_items
  constructor
  · rintro ⟨set, read, agrees⟩
    obtain ⟨listed, reads, -, rfl⟩ := Target.charSet?_eq_some_iff.1 read
    have placed : ¬listing.Displaced := by
      intro displaced
      have listedToo := covered_of_displaced displaced reads
      have unlisted : Listed.covered listing.items '\x0b' = false := by
        rw [Bool.eq_false_iff]
        intro covered
        exact absurd (listing.space_le_of_covered covered) (by decide)
      have agreed := agrees '\x0b'
      rw [CharSet.contains, contains, listedToo, unlisted, displaced.1] at agreed
      cases agreed
    obtain ⟨insert, same, counts⟩ := exists_listed?_rendered regular placed
    have apart : List.IsChain Listed.Apart listing.items := by
      by_contra adjacent
      rw [same, Listed.listed?_elements_eq_none joined ends regular adjacent] at reads
      cases reads
    rw [same, Listed.listed?_elements joined ends regular apart] at reads
    injection reads with reads
    subst reads
    exact
      { placed := placed
        apart := apart
        covered := fun char => (listing.contains_eq_iff (counts _ char)).1 (agrees char) }
  · rintro ⟨placed, apart, covered⟩
    obtain ⟨insert, same, counts⟩ := exists_listed?_rendered regular placed
    rw [Listed.listed?_elements joined ends regular apart] at same
    have nonempty : insert (listing.items.flatMap Listed.received) ≠ [] := by
      intro empty
      have begins : Listed.covered listing.items listing.first.low :=
        List.any_eq_true.2 ⟨_, .head _, Listed.covers_low (listing.ends _ (.head _))⟩
      have counted := counts (listing.items.flatMap Listed.received) listing.first.low
      rw [empty, covered _ begins] at counted
      cases counted
    exact
      ⟨{ negated := listing.negated
         listed := insert (listing.items.flatMap Listed.received) },
        Target.charSet?_eq_some_iff.2 ⟨_, same, nonempty, rfl⟩,
        fun char => (listing.contains_eq_iff (counts _ char)).2 (covered char)⟩

/-- A collection with no item from a dash is kept, unless it is negated and begins with a range
from a closing bracket. -/
theorem kept_of_low_ne {listing : Listing} (differ : ∀ item ∈ listing.items, item.low ≠ '-')
    (bracket : listing.negated = true → listing.first.low = ']' →
      listing.first.isRange = false) : listing.Kept where
  placed := by
    rintro ⟨negated, dash, -⟩
    rw [body, List.head?_append, Listed.head?_flatMap_text] at dash
    split at dash
    · next low =>
        have single := bracket negated low
        cases first : listing.first with
        | single char =>
            rw [first, Listed.tail, List.head?_nil, Option.none_or] at dash
            obtain ⟨item, among, same⟩ := Option.map_eq_some_iff.1 dash
            exact differ item (.tail _ (List.mem_of_head? among)) same
        | range low high =>
            rw [first] at single
            cases single
    · rw [Listed.text_eq] at dash
      injection dash with dash
      exact differ _ (.head _) dash
  apart :=
    listing.joined_items.imp_of_mem_imp fun _ item _ among _ _ => differ item among
  covered := by
    intro char covered
    obtain ⟨item, among, covers⟩ := List.any_eq_true.1 covered
    have received : item ∈ item.received := by
      have low := differ item among
      cases item with
      | single => exact .head _
      | range first last =>
          have differs : first ≠ '-' := low
          rw [Listed.received, if_neg differs]
          exact .head _
    exact List.any_eq_true.2 ⟨item, List.mem_flatMap.2 ⟨item, among, received⟩, covers⟩

/-- Take a collection that lists characters and ranges, with a closing bracket or a dash in
first place at most, and a range from a dash to itself in last place at most.  The rule about
dashes reads the items from what the pattern says; wherever the collection stands it is
rendered as one bracket expression, and as a whole pattern it is converted to just that.  The
target reads this bracket expression as the set of characters that the collection means,
exactly if the collection is kept: no line break is put before a dash that something follows,
no two ranges from a dash stand side by side, and what lies between the ends of such a range is
listed once more. -/
theorem bracket?_agrees_iff (listing : Listing)
    (regular : .range '-' '-' ∉ listing.items.dropLast) :
    Element.listed? ((listing.items.flatMap Listed.text).map .ofChar) = some listing.items ∧
      (∀ context : Context, context.collection? = none → ∀ position rest,
        ∃ opener members closer after place,
          Scan.Passes context position (listing.spelling context.magicness ++ rest)
              (opener :: (members ++ [closer])) after place rest ∧
            after.Continues context ∧
              ∀ style, (Tree.collection opener members closer).text style =
                listing.expression) ∧
        (∀ options, ∃ conversion,
          convert options (String.ofList (listing.spelling options.magicness)) =
              .ok conversion ∧
            conversion.converted = withCase options.ignoreCase listing.expression) ∧
          ((∃ set,
              (∀ rest,
                Target.bracket? (listing.expression.toList ++ rest) = some (set, rest)) ∧
                ∀ char, set.contains char = listing.contains char) ↔
            listing.Kept) := by
  refine
    ⟨Listed.listed?_text listing.joined_items listing.ends_items, ?_, listing.convert_eq, ?_⟩
  · intro context outside position rest
    obtain ⟨opener, members, closer, after, place, passes, continues, opens, lexemes, closes⟩ :=
      listing.passes outside position rest
    exact
      ⟨opener, members, closer, after, place, passes, continues,
        listing.text_eq opens lexemes closes⟩
  · rw [← exists_charSet?_iff regular]
    apply exists_congr
    intro set
    apply and_congr_left'
    simp only [bracket?_expression, Option.map_eq_some_iff, Prod.mk.injEq, and_true,
      exists_eq_right, forall_const]

/-- A range may end at a dash, and the next item comes behind it. -/
theorem bracket?_agrees_plus :
    ∃ listing : Listing,
      String.ofList (listing.spelling .magic) = "[+--a-z]" ∧
        listing.expression = "[+-\\-a-z]" ∧ .range '-' '-' ∉ listing.items.dropLast ∧
          ∃ set,
            (∀ rest, Target.bracket? ("[+-\\-a-z]".toList ++ rest) = some (set, rest)) ∧
              ∀ char, set.contains char =
                (('+' ≤ char && char ≤ '-') || ('a' ≤ char && char ≤ 'z')) := by
  let listing : Listing :=
    { negated := false
      first := .range '+' '-'
      others := [.range 'a' 'z']
      begins := by decide
      ends := by decide
      joined := by decide }
  have regular : .range '-' '-' ∉ listing.items.dropLast := by decide
  have kept : listing.Kept := kept_of_low_ne (by decide) (by decide)
  obtain ⟨-, -, -, agrees⟩ := bracket?_agrees_iff listing regular
  obtain ⟨set, read, contains⟩ := agrees.2 kept
  refine ⟨listing, rfl, rfl, regular, set, read, fun char => ?_⟩
  rw [contains]
  change (_ || (_ || false)) = _
  rw [Bool.or_false]
  rfl

/-- In a negated collection a dash in first place gets a line break before it, and so makes a
range.  A range from a dash loses what is between its ends. -/
theorem bracket?_disagrees :
    (∃ listing : Listing,
      convert {} "[^-a]" =
          .ok
            { converted := "[^\\r\\n-a]"
              ignoreCase := false
              magicness := .magic
              metadata := {} } ∧
        String.ofList (listing.spelling .magic) = "[^-a]" ∧
          (Target.bracket? "[^\\r\\n-a]".toList).map (fun read => read.1.contains '\x0b') =
              some false ∧
            listing.contains '\x0b' = true) ∧
      ∃ listing : Listing,
        convert {} "[--x]" =
            .ok
              { converted := "[-\\-x]"
                ignoreCase := false
                magicness := .magic
                metadata := {} } ∧
          String.ofList (listing.spelling .magic) = "[--x]" ∧
            (Target.bracket? "[-\\-x]".toList).map (fun read => read.1.contains 'a') =
                some false ∧
              listing.contains 'a' = true := by
  let dashFirst : Listing :=
    { negated := true
      first := .single '-'
      others := [.single 'a']
      begins := by decide
      ends := by decide
      joined := by decide }
  let fromDash : Listing :=
    { negated := false
      first := .range '-' 'x'
      others := []
      begins := by decide
      ends := by decide
      joined := by decide }
  exact
    ⟨⟨dashFirst, by rfl, by rfl, by decide +kernel, by rfl⟩, fromDash, by rfl, by rfl,
      by decide +kernel, by rfl⟩

end Collection.Listing

end VimPattern
