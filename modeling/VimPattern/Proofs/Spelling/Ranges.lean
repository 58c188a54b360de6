/-
Module: VimPattern.Proofs.Spelling.Ranges
Purpose: What the items of a collection are taken for, in a pattern and in the target.
Main exports:
  Listed.elements, Listed.received, Listed.Apart, Collection.elements_flatMap,
  Listed.listed?_text, Listed.listed?_elements, Listed.listed?_elements_eq_none
-/
import VimPattern.Proofs.Spelling.Listing

namespace VimPattern

/-!
The text of a collection and its rendering are read by the same rule about dashes.  Of two
dashes in a row the second one is escaped in the rendering, so that it separates nothing.  That
is harmless where it ends a range.  But a range that starts at a dash falls apart into its two
ends, and the second end may then begin a range with the item behind it.
-/

/-! ### Elements of items -/

namespace Listed

/-- The item is a range from a dash. -/
def startsAtDash (item : Listed) : Bool :=
  item.isRange && item.low == '-'

/-- The elements that an item is rendered as. -/
def elements : Listed → List Element
  | .single char => [.ofChar char]
  | .range low high =>
      if low = '-' then [.dash, .other '-', .ofChar high]
      else [.ofChar low, .dash, .other high]

/-- What the target takes an item for.  Of a range from a dash it gets the two dashes and the
other end. -/
def received : Listed → List Listed
  | .single char => [.single char]
  | .range low high =>
      if low = '-' then [.single '-', .single '-', .single high] else [.range low high]

/-- Of several items only the last one may be a range from a dash to itself. -/
theorem regular_cons {item : Listed} {others : List Listed}
    (regular : .range '-' '-' ∉ (item :: others).dropLast) :
    (item = .range '-' '-' → others = []) ∧ .range '-' '-' ∉ others.dropLast := by
  cases others with
  | nil => simp
  | cons next others =>
      rw [List.dropLast_cons_cons, List.mem_cons, not_or] at regular
      exact ⟨fun same => absurd same.symm regular.1, regular.2⟩

/-- The first element of an item is its first character. -/
theorem head?_elements (item : Listed) : item.elements.head? = some (.ofChar item.low) := by
  cases item with
  | single => rfl
  | range low high =>
      rw [elements]
      split
      · next dash =>
          subst dash
          rfl
      · rfl

/-- Behind a single character no dash can be the next item's first character. -/
theorem MayFollow.low_ne {before item : Listed} (follows : before.MayFollow item)
    (single : before.isRange = false) : item.low ≠ '-' := by
  rintro dash
  rcases follows with plain | ⟨_, _, range⟩
  · rw [dash] at plain
    cases plain
  · rw [single] at range
    cases range

theorem ofChar_low_ne {item : Listed} (differs : item.low ≠ '-') :
    Element.ofChar item.low ≠ .dash := by
  rw [Element.ofChar_of_ne differs]
  rintro ⟨⟩

end Listed

/-- A row of items begins with the first character of the first one. -/
theorem Listed.head?_flatMap_text (items : List Listed) :
    (items.flatMap text).head? = items.head?.map low := by
  cases items with
  | nil => rfl
  | cons item others =>
      rw [List.flatMap_cons, text_eq]
      rfl

theorem Listed.head?_flatMap_elements (items : List Listed) :
    (items.flatMap elements).head? = items.head?.map fun item => .ofChar item.low := by
  cases items with
  | nil => rfl
  | cons item others => simp [head?_elements]

namespace Collection

/-- A character stands for itself unless it and the next one are a pair of dashes. -/
theorem elements_cons {char : Char} {text : List Char}
    (single : char = '-' → text.head? ≠ some '-') :
    elements (char :: text) = .ofChar char :: elements text := by
  rw [elements]
  rintro others dash rfl
  exact single dash rfl

/-- An item is rendered as its elements, whatever stands behind it; only a single dash must not
have another behind it, and a range from a dash to itself nothing at all. -/
theorem elements_append {item : Listed} {rest : List Char}
    (regular : item = .range '-' '-' → rest = [])
    (single : item = .single '-' → rest.head? ≠ some '-') :
    elements (item.text ++ rest) = item.elements ++ elements rest := by
  cases item with
  | single char =>
      apply elements_cons
      rintro rfl
      exact single rfl
  | range low high =>
      rw [Listed.elements]
      by_cases dash : low = '-'
      · subst dash
        have last : high = '-' → rest.head? ≠ some '-' := by
          rintro rfl
          rw [regular rfl]
          simp
        change elements ('-' :: '-' :: high :: rest) = _
        rw [elements, elements_cons last, if_pos rfl]
        rfl
      · change elements (low :: '-' :: high :: rest) = _
        rw [elements_cons fun same => absurd same dash, if_neg dash]
        by_cases closing : high = '-'
        · subst closing
          rw [elements]
          rfl
        · rw [elements_cons fun _ => by simpa using closing,
            elements_cons fun same => absurd same closing, Element.ofChar_of_ne closing]
          rfl

/-- A row of items is rendered item by item. -/
theorem elements_flatMap {items : List Listed} (joined : List.IsChain Listed.MayFollow items)
    (regular : .range '-' '-' ∉ items.dropLast) :
    elements (items.flatMap Listed.text) = items.flatMap Listed.elements := by
  induction items with
  | nil => rfl
  | cons item others inductionHypothesis =>
      obtain ⟨last, regular⟩ := Listed.regular_cons regular
      rw [List.flatMap_cons, List.flatMap_cons, elements_append,
        inductionHypothesis joined.tail regular]
      · intro same
        rw [last same]
        rfl
      rintro rfl dash
      rw [Listed.head?_flatMap_text] at dash
      obtain ⟨next, among, dash⟩ := Option.map_eq_some_iff.1 dash
      exact (joined.rel_head? among).low_ne rfl dash

end Collection

/-! ### Reading the elements -/

namespace Listed

open Element

/-- What a pattern says is read by the rule about dashes as the items that it says. -/
theorem listed?_text {items : List Listed} (joined : List.IsChain MayFollow items)
    (ends : ∀ item ∈ items, item.Ends) :
    listed? ((items.flatMap text).map ofChar) = some items := by
  induction items with
  | nil => rfl
  | cons item others inductionHypothesis =>
      have later := inductionHypothesis joined.tail fun item among => ends item (.tail _ among)
      cases item with
      | single char =>
          have single : ((others.flatMap text).map ofChar).head? ≠ some .dash := by
            rw [List.head?_map, head?_flatMap_text, Option.map_map]
            intro dash
            obtain ⟨next, among, dash⟩ := Option.map_eq_some_iff.1 dash
            exact ofChar_low_ne ((joined.rel_head? among).low_ne rfl) dash
          change listed? (ofChar char :: (others.flatMap text).map ofChar) = _
          rw [listed?_cons _ single, later, char_ofChar]
          rfl
      | range low high =>
          have ordered : (ofChar low).char ≤ (ofChar high).char := by
            rw [char_ofChar, char_ofChar]
            exact (ends _ (.head _)).1
          change
            listed? (ofChar low :: .dash :: ofChar high :: (others.flatMap text).map ofChar) = _
          rw [listed?_range ordered, later, char_ofChar, char_ofChar]
          rfl

/-- Behind a range that starts at a dash no other may follow, or it would end a range that
starts at the end of the first. -/
def Apart (before item : Listed) : Prop :=
  before.startsAtDash → item.low ≠ '-'

/-- The elements of an item are read as what the target takes it for. -/
theorem listed?_elements_append {item : Listed} (ends : item.Ends) {rest : List Element}
    (regular : item = .range '-' '-' → rest = [])
    (single : item.isRange = false ∨ item.startsAtDash → rest.head? ≠ some .dash) :
    listed? (item.elements ++ rest) = (listed? rest).map (item.received ++ ·) := by
  cases item with
  | single char =>
      change listed? (ofChar char :: rest) = _
      rw [listed?_cons _ (single (.inl rfl)), char_ofChar]
      rfl
  | range low high =>
      rw [elements, received]
      by_cases dash : low = '-'
      · subst dash
        have apart := single (.inr rfl)
        rw [if_pos rfl, if_pos rfl]
        by_cases same : high = '-'
        · subst same
          rw [regular rfl]
          rfl
        · change listed? (.dash :: .other '-' :: ofChar high :: rest) = _
          rw [listed?_cons _ (by simp), listed?_cons _ (by simp [ofChar_of_ne same]),
            listed?_cons _ apart, char_ofChar, Option.map_map, Option.map_map]
          rfl
      · rw [if_neg dash, if_neg dash]
        change listed? (ofChar low :: .dash :: .other high :: rest) = _
        have ordered : (ofChar low).char ≤ (Element.other high).char := by
          rw [char_ofChar]
          exact ends.1
        rw [listed?_range ordered, char_ofChar]
        rfl

/-- Right behind an item there is a dash only where the item may have one behind it. -/
theorem head?_elements_ne {item : Listed} {others : List Listed}
    (joined : List.IsChain MayFollow (item :: others))
    (apart : ∀ next ∈ others.head?, Apart item next)
    (single : item.isRange = false ∨ item.startsAtDash) :
    (others.flatMap elements).head? ≠ some .dash := by
  rw [head?_flatMap_elements]
  intro dash
  obtain ⟨next, among, dash⟩ := Option.map_eq_some_iff.1 dash
  have differs : next.low ≠ '-' := by
    rcases single with single | starts
    · exact (joined.rel_head? among).low_ne single
    · exact apart next among starts
  exact ofChar_low_ne differs dash

/-- The end of a range from a dash and the start of the next one look like a range whose ends
are in the wrong order. -/
theorem listed?_adjacent {item next : Listed} (ends : item.Ends)
    (regular : item ≠ .range '-' '-') (follows : item.MayFollow next)
    (adjacent : ¬Apart item next) (rest : List Element) :
    listed? (item.elements ++ (next.elements ++ rest)) = none := by
  rw [Apart, Classical.not_imp, not_not] at adjacent
  obtain ⟨starts, dash⟩ := adjacent
  cases item with
  | single => cases starts
  | range low high =>
      obtain rfl : low = '-' := by simpa [startsAtDash, isRange, Listed.low] using starts
      cases next with
      | single char =>
          rcases follows with plain | ⟨_, range, _⟩
          · rw [dash] at plain
            cases plain
          · cases range
      | range first last =>
          obtain rfl : first = '-' := dash
          have differs : high ≠ '-' := fun same => regular (same ▸ rfl)
          have reversed : ¬(ofChar high).char ≤ (Element.other '-').char := by
            rw [char_ofChar]
            exact fun before => differs (Char.le_antisymm before ends.1)
          change
            listed? (.dash :: .other '-' :: ofChar high :: .dash :: .other '-' ::
              ofChar last :: rest) = _
          rw [listed?_cons _ (by simp), listed?_cons _ (by simp [ofChar_of_ne differs]),
            listed?_reversed reversed]
          rfl

section

variable {items : List Listed} (joined : List.IsChain MayFollow items)
  (ends : ∀ item ∈ items, item.Ends) (regular : .range '-' '-' ∉ items.dropLast)
include joined ends regular

/-- The elements of several items are read as what the target takes the items for. -/
theorem listed?_elements (apart : List.IsChain Apart items) :
    listed? (items.flatMap elements) = some (items.flatMap received) := by
  induction items with
  | nil => rfl
  | cons item others inductionHypothesis =>
      obtain ⟨last, regular⟩ := regular_cons regular
      have later :=
        inductionHypothesis joined.tail (fun item among => ends item (.tail _ among)) regular
          apart.tail
      rw [List.flatMap_cons,
        listed?_elements_append (ends item (.head _)) (fun same => by rw [last same]; rfl)
          (head?_elements_ne joined apart.rel_head?),
        later]
      rfl

/-- Where two ranges from a dash stand side by side, the elements are no row that can be
read. -/
theorem listed?_elements_eq_none (adjacent : ¬List.IsChain Apart items) :
    listed? (items.flatMap elements) = none := by
  induction items with
  | nil => exact absurd .nil adjacent
  | cons item others inductionHypothesis =>
      obtain ⟨last, regular⟩ := regular_cons regular
      rw [List.flatMap_cons]
      by_cases apart : ∀ next ∈ others.head?, Apart item next
      · have later :=
          inductionHypothesis joined.tail (fun item among => ends item (.tail _ among)) regular
            fun others => adjacent (List.isChain_cons.2 ⟨apart, others⟩)
        rw [listed?_elements_append (ends item (.head _)) (fun same => by rw [last same]; rfl)
          (head?_elements_ne joined apart), later]
        rfl
      · obtain ⟨next, among, clash⟩ : ∃ next ∈ others.head?, ¬Apart item next := by
          simpa using apart
        have follows := joined.rel_head? among
        obtain ⟨rest, rfl⟩ := List.head?_eq_some_iff.1 among
        rw [List.flatMap_cons]
        exact
          listed?_adjacent (ends item (.head _)) (fun same => by cases last same) follows clash
            (rest.flatMap elements)

end

/-! ### Coverage -/

/-- Line breaks put into a row add themselves to what it lists. -/
theorem covered_breaks (front back : List Listed) (char : Char) :
    covered (front ++ .single '\r' :: .single '\n' :: back) char =
      (covered (front ++ back) char || char ∈ ['\r', '\n']) := by
  rw [Bool.eq_iff_iff]
  simp only [covered, covers, List.any_append, List.any_cons, Bool.or_eq_true, beq_iff_eq,
    List.mem_cons, List.not_mem_nil, or_false, decide_eq_true_eq]
  tauto

/-- An item covers the character that it begins with. -/
theorem covers_low {item : Listed} (ends : item.Ends) : item.covers item.low := by
  cases item with
  | single => simp [covers, low]
  | range low high =>
      rw [covers, Listed.low, decide_eq_true (Char.le_refl low), decide_eq_true ends.1]
      rfl

/-- The target takes an item for nothing that the item does not cover. -/
theorem covers_of_received {item : Listed} (ends : item.Ends) {char : Char}
    (received : covered item.received char) : item.covers char := by
  cases item with
  | single => simpa [covered, Listed.received] using received
  | range low high =>
      rw [Listed.received] at received
      split at received
      · next dash =>
          subst dash
          simp only [covered, covers, List.any_cons, List.any_nil, Bool.or_false,
            Bool.or_eq_true, beq_iff_eq, Bool.and_eq_true, decide_eq_true_eq] at received ⊢
          rcases received with rfl | rfl | rfl
          · exact ⟨Char.le_refl _, ends.1⟩
          · exact ⟨Char.le_refl _, ends.1⟩
          · exact ⟨ends.1, Char.le_refl _⟩
      · simpa [covered] using received

theorem covered_of_received {items : List Listed} (ends : ∀ item ∈ items, item.Ends)
    {char : Char} (received : covered (items.flatMap Listed.received) char) :
    covered items char := by
  obtain ⟨part, among, covers⟩ := List.any_eq_true.1 received
  obtain ⟨item, member, inside⟩ := List.mem_flatMap.1 among
  exact
    List.any_eq_true.2
      ⟨item, member,
        covers_of_received (ends item member) (List.any_eq_true.2 ⟨part, inside, covers⟩)⟩

end Listed

end VimPattern
