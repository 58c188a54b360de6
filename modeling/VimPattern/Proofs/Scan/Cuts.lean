/-
Module: VimPattern.Proofs.Scan.Cuts
Purpose: An item does not depend on the text behind a boundary between items.
Main exports:
  Context.verdict_cut, Context.Spells.of_backslash, Scan.Reaches.exchange
-/
import VimPattern.Proofs.Scan.Lookahead

namespace VimPattern

/-!
A text in front of a boundary between two items is read as if it were all there is, whatever
stands behind the boundary: what the rules find is settled by the characters they take, and no
item before the boundary takes any from behind it.  So another text may be put in place of the
one behind, as long as no item before it grows into that one.
-/

/-! ### Outside collections -/

namespace Verdict

section

variable {text rest : List Char}

theorem afterUnderscore_cut
    (within : (afterUnderscore (text ++ rest)).Within (text.length + 1)) :
    afterUnderscore (text ++ rest) = afterUnderscore text := by
  rcases text with _ | ⟨first, text⟩
  · -- Whatever comes behind the underscore would belong to the item.
    have two : ¬2 ≤ 1 := by decide
    rw [List.nil_append] at within ⊢
    unfold afterUnderscore at within ⊢
    split at within
    · exact absurd within two
    · exact absurd within two
    · exact absurd within two
    · exact absurd (Nat.le_trans (Nat.le_add_left 2 _) within) two
    · split at within
      · exact absurd within two
      · rfl
    · rfl
  · by_cases bracket : first = '['
    · subst bracket
      have opening : (Collection.readOpening true (text ++ rest)).2 ≤ text.length :=
        Nat.le_of_add_le_add_right (within : _ + 2 ≤ _ + 2)
      rw [List.cons_append, afterUnderscore, afterUnderscore, Collection.readOpening_cut opening]
    · unfold afterUnderscore
      split <;> simp_all

theorem afterZ_cut (context : Context)
    (within : (afterZ context (text ++ rest)).Within (text.length + 1)) :
    afterZ context (text ++ rest) = afterZ context text := by
  rcases text with _ | ⟨first, text⟩
  · have two : ¬2 ≤ 1 := by decide
    rw [List.nil_append] at within ⊢
    unfold afterZ at within ⊢
    split at within
    · exact absurd within two
    · exact absurd within two
    · exact absurd within two
    · split at within
      · exact absurd within two
      · next noDigit => exact if_neg noDigit
    · rfl
  · unfold afterZ
    split <;> simp_all

theorem extra_le_of_numeric {found : Option Char} {extra length : Nat} {wrap : Char → Lexeme}
    (within : (numeric found extra wrap).Within length) : extra ≤ length := by
  cases found <;> exact within

/-- Behind the signs of anchors and groups a position or a number is looked for. -/
theorem afterPercent_eq {text : List Char}
    (unsigned : ∀ sign ∈ text.head?, sign ∉ ['^', '$', '(', '[']) :
    afterPercent text =
      match editorPositionLength? text with
      | some taken => mark .editorPosition (taken + 1)
      | none =>
          match CodePoint.read? text with
          | some (found, taken) =>
              numeric found (taken + 1) fun char => .literal (.codePoint char)
          | none => literal (.escaped '%') 1 := by
  unfold afterPercent
  split
  case h_5 => rfl
  all_goals exact absurd (unsigned _ rfl) (by decide)

theorem afterPercent_cut
    (within : (afterPercent (text ++ rest)).Within (text.length + 1)) :
    afterPercent (text ++ rest) = afterPercent text := by
  by_cases signed : ∃ sign ∈ (text ++ rest).head?, sign ∈ ['^', '$', '(', '[']
  · obtain ⟨sign, starts, among⟩ := signed
    simp only [List.mem_cons, List.not_mem_nil, or_false] at among
    rcases text with _ | ⟨first, text⟩
    · -- The sign would belong to the item.
      obtain ⟨others, rfl⟩ := List.head?_eq_some_iff.1 starts
      rcases among with rfl | rfl | rfl | rfl <;> exact absurd within (by decide : ¬2 ≤ 1)
    · cases starts
      rcases among with rfl | rfl | rfl | rfl <;> rfl
  · have joined : ∀ sign ∈ (text ++ rest).head?, sign ∉ ['^', '$', '(', '['] :=
      fun sign starts among => signed ⟨sign, starts, among⟩
    have alone : ∀ sign ∈ text.head?, sign ∉ ['^', '$', '(', '['] := by
      intro sign starts
      apply joined sign
      rw [List.head?_append, starts]
      rfl
    rw [afterPercent_eq joined] at within ⊢
    rw [afterPercent_eq alone]
    have position : editorPositionLength? (text ++ rest) = editorPositionLength? text := by
      apply settles_editorPositionLength?.cut
      intro taken read
      rw [read] at within
      exact Nat.le_of_succ_le_succ within
    rw [position] at within ⊢
    cases none : editorPositionLength? text with
    | some taken => rfl
    | none =>
        rw [none] at within
        have number : CodePoint.read? (text ++ rest) = CodePoint.read? text := by
          apply CodePoint.read?_cut
          intro found read
          rw [read] at within
          exact Nat.le_of_succ_le_succ (extra_le_of_numeric within)
        rw [number]

theorem afterBackslash_cut (context : Context) (char : Char)
    (within : (afterBackslash context char (text ++ rest)).Within (text.length + 1)) :
    afterBackslash context char (text ++ rest) = afterBackslash context char text := by
  unfold afterBackslash at within ⊢
  cases switch : Magicness.ofSwitch? char with
  | some level => rfl
  | none =>
      cases letter : CharClass.ofLetter? char with
      | some charClass => rfl
      | none =>
          rw [switch, letter] at within
          dsimp only at within ⊢
          split at within
          · rfl
          · exact afterUnderscore_cut within
          · exact afterZ_cut context within
          · exact afterPercent_cut within
          all_goals rfl

end

end Verdict

theorem Operator.read?_cut {context : Context} {escaped : Bool} {text rest : List Char}
    {operator : Operator}
    (within : ∀ found, operator.read? context escaped (text ++ rest) = some found →
      found.2 ≤ text.length) :
    operator.read? context escaped (text ++ rest) = operator.read? context escaped text := by
  cases operator with
  | collection =>
      have opening := within _ rfl
      rw [read?, read?, Collection.readOpening_cut opening]
  | braces =>
      have settles : Settles (Braces.read? escaped) Prod.snd := Braces.settles_read? escaped
      have count : Braces.read? escaped (text ++ rest) = Braces.read? escaped text := by
        apply settles.cut
        rintro ⟨braces, taken⟩ read
        exact within (_, taken) (by rw [read?, read, Option.map_some])
      rw [read?, read?, count]
  | assertion =>
      have test : Assertion.read? (text ++ rest) = Assertion.read? text := by
        apply Assertion.settles_read?.cut
        rintro ⟨assertion, taken⟩ read
        exact within (_, taken) (by rw [read?, read, Option.map_some])
      rw [read?, read?, test]
  | _ => rfl

namespace Verdict

section

variable {text rest : List Char}

theorem escaped_cut {context : Context} (complete : text ≠ [])
    (within : (escaped context (text ++ rest)).Within text.length) :
    escaped context (text ++ rest) = escaped context text := by
  rcases text with _ | ⟨char, text⟩
  · exact absurd rfl complete
  · rw [List.cons_append, escaped] at within ⊢
    rw [escaped]
    cases known : Operator.ofChar? char with
    | none =>
        rw [known] at within
        exact afterBackslash_cut context char within
    | some operator =>
        rw [known] at within
        dsimp only at within ⊢
        split
        · next active =>
            rw [if_pos active] at within
            have same : operator.read? context true (text ++ rest) =
                operator.read? context true text := by
              apply Operator.read?_cut
              intro found read
              rw [read] at within
              exact Nat.le_of_succ_le_succ within
            rw [same]
        · rfl

theorem bare_cut {context : Context} {char : Char}
    (within : (bare context char (text ++ rest)).Within text.length) :
    bare context char (text ++ rest) = bare context char text := by
  unfold bare at within ⊢
  cases known : Operator.ofChar? char with
  | some operator =>
      rw [known] at within
      dsimp only at within ⊢
      split
      · next active =>
          rw [if_pos active] at within
          have same : operator.read? context false (text ++ rest) =
              operator.read? context false text := by
            apply Operator.read?_cut
            intro found read
            rw [read] at within
            exact within
          rw [same]
      · rfl
  | none =>
      rw [known] at within
      dsimp only at within ⊢
      rcases text with _ | ⟨first, text⟩
      · -- A bracket or a parenthesis that belongs to a percent sign is one character more.
        have one : ¬1 ≤ 0 := by decide
        rw [List.nil_append] at within ⊢
        split at within
        · split at within
          · exact absurd within one
          · next magic => simp [magic]
        · split at within
          · exact absurd within one
          · next magic => simp [magic]
        · rfl
        · split <;> simp_all
      · split <;> simp_all

/-! ### Inside collections -/

theorem backslashMember_cut (complete : text ≠ [])
    (within : (backslashMember (text ++ rest)).Within text.length) :
    backslashMember (text ++ rest) = backslashMember text := by
  rcases text with _ | ⟨first, text⟩
  · exact absurd rfl complete
  · unfold backslashMember at within ⊢
    dsimp only at within ⊢
    have percent : ((first :: text ++ rest).head? == some '%') =
        ((first :: text).head? == some '%') := rfl
    rw [percent, drop_head?_append] at within ⊢
    have size := length_skip '%' (first :: text)
    generalize (if (first :: text).head? == some '%' then (first :: text).drop 1
      else first :: text) = number at within size ⊢
    have same : CodePoint.read? (number ++ rest) = CodePoint.read? number := by
      apply CodePoint.read?_cut
      intro found read
      rw [read] at within
      have bound := extra_le_of_numeric within
      omega
    rw [same]
    rfl

/-- An equivalence class takes four characters more, and nothing else of the kind fewer. -/
theorem bracketMember_of_short {text : List Char} (unnamed : className? text = none)
    (short : (bracketMember text).Within 3) : bracketMember text = member (.plain '[') 0 := by
  have four : ¬4 ≤ 3 := by decide
  unfold bracketMember at short ⊢
  rw [unnamed] at short ⊢
  dsimp only at short ⊢
  split at short
  · split at short
    · exact absurd short four
    · next noClass => exact if_neg noClass
  · rfl

theorem Within.mono {verdict : Verdict} {size length : Nat} (within : verdict.Within size)
    (less : size ≤ length) : verdict.Within length := by
  cases verdict with
  | item content extra => exact Nat.le_trans within less
  | fault fault extra => exact Nat.le_trans within less
  | noRule => exact within

theorem bracketMember_cut
    (within : (bracketMember (text ++ rest)).Within text.length) :
    bracketMember (text ++ rest) = bracketMember text := by
  have name : className? (text ++ rest) = className? text := by
    apply settles_className?.cut
    intro name read
    unfold bracketMember at within
    rw [read] at within
    dsimp only at within
    split at within <;> exact within
  cases named : className? text with
  | some found =>
      unfold bracketMember
      rw [name, named]
  | none =>
      by_cases short : text.length ≤ 3
      · have alone := (within_bracketMember text).mono short
        rw [bracketMember_of_short (name.trans named) (within.mono short),
          bracketMember_of_short named alone]
      · rcases text with _ | ⟨opening, _ | ⟨char, _ | ⟨closing, _ | ⟨bracket, text⟩⟩⟩⟩
        case cons.cons.cons.cons =>
          unfold bracketMember
          rw [name, named]
          by_cases same : bracket = ']' <;> simp [same]
        all_goals exact absurd (by simp) short

theorem inCollection_cut {withBreak : Bool} {char : Char} (complete : char = '\\' → text ≠ [])
    (within : (inCollection withBreak char (text ++ rest)).Within text.length) :
    inCollection withBreak char (text ++ rest) = inCollection withBreak char text := by
  unfold inCollection at within ⊢
  split at within
  · rfl
  · exact bracketMember_cut within
  · exact backslashMember_cut (complete rfl) within
  · rcases text with _ | ⟨first, text⟩
    · rw [List.nil_append] at within ⊢
      split at within
      · exact absurd within (by decide : ¬1 ≤ 0)
      · next single => exact if_neg single
    · rfl
  · rfl

end

end Verdict

/-- What follows a text does not matter to an item of the text that ends in it.  Only a
backslash needs a character behind it. -/
theorem Context.verdict_cut {context : Context} {char : Char} {text rest : List Char}
    (complete : char = '\\' → text ≠ [])
    (within : (context.verdict char (text ++ rest)).Within text.length) :
    context.verdict char (text ++ rest) = context.verdict char text := by
  cases region : context.collection? with
  | none =>
      rw [verdict_outside region, Verdict.outside] at within
      rw [verdict_outside region, verdict_outside region, Verdict.outside, Verdict.outside]
      split
      · next backslash =>
          rw [if_pos backslash] at within
          exact Verdict.escaped_cut (complete backslash) within
      · next bare =>
          rw [if_neg bare] at within
          exact Verdict.bare_cut within
  | some withBreak =>
      rw [verdict_inside region] at within
      rw [verdict_inside region, verdict_inside region]
      exact Verdict.inCollection_cut complete within

/-! ### Places in a pattern -/

/-- An item that is a backslash alone is a member of a collection. -/
theorem Context.Spells.of_backslash {context : Context} {content : Content}
    (spells : context.Spells ['\\'] content) :
    context.collection?.isSome ∧ ∃ member, content = .lexeme (.member member) := by
  generalize alone : ['\\'] = raw at spells
  cases spells with
  | outside _ spells =>
      cases spells with
      | @operator operator =>
          unfold Operator.spelling at alone
          split at alone
          · cases operator <;> cases alone
          · cases alone
      | plain bare => exact absurd (List.cons.inj alone).1.symm bare
      | _ => cases alone
  | inside inside spells =>
      refine ⟨inside ▸ rfl, ?_⟩
      cases spells with
      | closing => cases alone
      | _ => exact ⟨_, rfl⟩

namespace Scan

/-- A text that no rule takes into the item before it may stand in place of what follows a
boundary between two items. -/
theorem Reaches.exchange {level : Magicness} {front behind rest : List Char}
    {items : List Item} {context : Context} {position : Nat} {left : List Char}
    (detached : Detached rest) (named : ∀ waiting ∈ markPrefixes, ¬waiting <:+ front)
    (reaches : Reaches level (String.ofList (front ++ behind)) items context position left) :
    ∀ text, left = text ++ behind → (text = [] → context.collection? = none) →
      Reaches level (String.ofList (front ++ rest)) items context position (text ++ rest) := by
  induction reaches with
  | start =>
      intro text left _
      rw [String.toList_ofList] at left
      obtain rfl := List.append_cancel_right left
      have first := @Reaches.start level (String.ofList (front ++ rest))
      rwa [String.toList_ofList] at first
  | @item items context position char text content extra before verdict inductionHypothesis =>
      intro last left boundary
      obtain ⟨own, length, rfl⟩ : ∃ own, own.length = extra ∧ text = own ++ last ++ behind := by
        have bound := context.within_verdict char text
        rw [verdict] at bound
        refine ⟨text.take extra, List.length_take_of_le bound, ?_⟩
        rw [List.append_assoc, ← left, List.take_append_drop]
      have taken (others : List Char) : (own ++ last ++ others).take extra = own := by
        rw [List.append_assoc]
        exact List.take_left' length
      have dropped : (own ++ last ++ rest).drop extra = last ++ rest := by
        rw [List.append_assoc]
        exact List.drop_left' length
      rw [taken] at boundary ⊢
      have earlier := inductionHypothesis (char :: (own ++ last)) rfl fun absent => nomatch absent
      -- A backslash alone is an item only inside a collection, where it leaves the reading.
      have complete : char = '\\' → own ++ last ≠ [] := by
        rintro rfl single
        obtain ⟨rfl, rfl⟩ := List.append_eq_nil_iff.1 single
        have spells := Context.spells_of_verdict verdict
        rw [taken] at spells
        obtain ⟨inside, member, rfl⟩ := spells.of_backslash
        have outside : context.collection? = none := boundary rfl
        rw [outside] at inside
        cases inside
      have named : char :: (own ++ last) ∉ markPrefixes := by
        obtain ⟨passed, whole, _⟩ := before.remains
        rw [String.toList_ofList, ← List.cons_append, ← List.append_assoc] at whole
        exact fun among => named _ among ⟨passed, List.append_cancel_right whole⟩
      have alone : context.verdict char (own ++ last) = .item content extra := by
        rw [← Context.verdict_cut complete, verdict]
        rw [verdict, Verdict.Within, List.length_append]
        omega
      have joined := context.verdict_append detached complete named
      rw [List.cons_append] at earlier
      have later := earlier.item (joined.trans alone)
      rwa [taken, dropped] at later

end Scan

end VimPattern
